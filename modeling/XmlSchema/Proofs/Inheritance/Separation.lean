import XmlSchema.Proofs.Inheritance.Identifiers

/-!
# The renaming of attributes

Where an attribute has the identifier of a child, of its owner or of an ancestor of its owner, it is
renamed: the suffix is added to its name once, and then again until the name is free. No other
attribute changes, and the table keeps its order and its size, since no name is used twice,
`forall₂_separateNames`. What has been renamed avoids all identifiers of children, and nothing else
decides about a renaming, so the pass has nothing left to do when it runs again:
`separation_of_separateAttributes`.
-/

namespace XmlSchema

/-! ## Names with suffixes -/

/-- A name with the suffix of renamed attributes added some number of times. -/
def withSuffixes (name : String) : Nat → String
  | 0 => name
  | count + 1 => withSuffixes (name ++ attributeSuffix) count

/-- Whether an attribute cannot be renamed to a name. -/
def IsTaken (identifiers names : List String) (name : String) : Prop :=
  clean name ∈ identifiers ∨ name ∈ names

/-- A fresh name has as few suffixes as it can. -/
theorem exists_freshName (identifiers names : List String) (name : String) :
    ∃ count, freshName identifiers names name = withSuffixes name count ∧
      ¬ IsTaken identifiers names (withSuffixes name count) ∧
      ∀ fewer < count, IsTaken identifiers names (withSuffixes name fewer) := by
  fun_induction freshName identifiers names name with
  | case1 name taken inductionHypothesis =>
      obtain ⟨count, same, free, first⟩ := inductionHypothesis
      refine ⟨count + 1, same, free, fun fewer less => ?_⟩
      cases fewer with
      | zero => exact taken
      | succ fewer => exact first fewer (Nat.lt_of_succ_lt_succ less)
  | case2 name free => exact ⟨0, rfl, free, fun _ less => absurd less (Nat.not_lt_zero _)⟩

/-! ## One attribute after the other -/

/-- What becomes of an attribute under its key, with the `old` keys of the table and the `new` ones:
it stays, or it gets its name with the least number of suffixes, at least one, that is free. -/
inductive Separated (identifiers old new : List String) :
    String × Attribute → String × Attribute → Prop where
  | stays {key : String} {declaration : Attribute} (apart : declaration.cleanName ∉ identifiers) :
      Separated identifiers old new (key, declaration) (key, declaration)
  | renamed {key : String} {declaration : Attribute} {count : Nat}
      (shared : declaration.cleanName ∈ identifiers) (suffixed : 0 < count)
      (free : ¬ IsTaken identifiers old (withSuffixes declaration.name count))
      (first : ∀ fewer, 0 < fewer → fewer < count →
        IsTaken identifiers (old ++ new) (withSuffixes declaration.name fewer)) :
      Separated identifiers old new (key, declaration)
        (withSuffixes declaration.name count,
          declaration.rename (withSuffixes declaration.name count))

theorem Separated.mono {identifiers old new more : List String} {before after : String × Attribute}
    (separated : Separated identifiers old new before after) (kept : new ⊆ more) :
    Separated identifiers old more before after := by
  cases separated with
  | stays apart => exact .stays apart
  | renamed shared suffixed free first =>
      refine .renamed shared suffixed free fun fewer positive less => ?_
      exact (first fewer positive less).imp_right fun member =>
        List.append_subset.2 ⟨List.subset_append_left .., List.subset_append_of_subset_right _ kept⟩
          member

/-- One step of the separation of a table of attributes with the `old` keys. -/
def separateEntry (identifiers old : List String) (separated : Table Attribute)
    (entry : String × Attribute) : Table Attribute :=
  if entry.2.cleanName ∈ identifiers then
    let name := freshName identifiers (old ++ separated.keys) (entry.2.name ++ attributeSuffix)
    separated.insert name (entry.2.rename name)
  else separated.insert entry.1 entry.2

theorem separateNames_eq_foldl (identifiers : List String) (attributes : Table Attribute) :
    separateNames identifiers attributes =
      attributes.entries.foldl (separateEntry identifiers attributes.keys) .empty := rfl

section Steps

variable (identifiers : List String) {old : List String} {separated : Table Attribute}
  {entry : String × Attribute}

/-- A step adds an entry at the end, under the old key or under one that is not among the old ones.
-/
theorem exists_separateEntry (isNew : entry.1 ∉ separated.keys) :
    ∃ after, (separateEntry identifiers old separated entry).entries =
        separated.entries ++ [after] ∧
      Separated identifiers old separated.keys entry after ∧
      (after.1 = entry.1 ∨ after.1 ∉ old) := by
  obtain ⟨key, declaration⟩ := entry
  unfold separateEntry
  dsimp only
  split
  · rename_i shared
    obtain ⟨count, same, free, first⟩ :=
      exists_freshName identifiers (old ++ separated.keys) (declaration.name ++ attributeSuffix)
    have unused : withSuffixes (declaration.name ++ attributeSuffix) count ∉
        old ++ separated.keys := fun member => free (.inr member)
    rw [List.mem_append, not_or] at unused
    rw [same]
    have freeOfOld : ¬ IsTaken identifiers old (withSuffixes declaration.name (count + 1)) := by
      rintro (identifier | name)
      · exact free (.inl identifier)
      · exact unused.1 name
    refine ⟨_, Table.entries_insert_of_not_mem unused.2 _,
      .renamed shared count.succ_pos freeOfOld fun fewer positive less => ?_, .inr unused.1⟩
    cases fewer with
    | zero => cases positive
    | succ fewer => exact first fewer (Nat.lt_of_succ_lt_succ less)
  · rename_i apart
    exact ⟨_, Table.entries_insert_of_not_mem isNew _, .stays apart, .inl rfl⟩

/-- The steps add one entry for each, in order. -/
theorem exists_foldl_separateEntry {entries : List (String × Attribute)}
    (once : (entries.map Prod.fst).Nodup)
    (among : ∀ entry ∈ entries, entry.1 ∈ old ∧ entry.1 ∉ separated.keys) :
    ∃ more, (entries.foldl (separateEntry identifiers old) separated).entries =
        separated.entries ++ more ∧
      List.Forall₂ (Separated identifiers old ((separated.entries ++ more).map Prod.fst)) entries
        more := by
  induction entries generalizing separated with
  | nil => exact ⟨[], (List.append_nil _).symm, .nil⟩
  | cons entry rest inductionHypothesis =>
      obtain ⟨fresh, onceLater⟩ := List.nodup_cons.1 once
      obtain ⟨⟨-, isNew⟩, later⟩ := List.forall_mem_cons.1 among
      obtain ⟨after, entered, becomes, place⟩ :=
        @exists_separateEntry identifiers old separated entry isNew
      have keys : (separateEntry identifiers old separated entry).keys =
          separated.keys ++ [after.1] := by
        unfold Table.keys
        rw [entered, List.map_append, List.map_singleton]
      have amongLater : ∀ other ∈ rest, other.1 ∈ old ∧
          other.1 ∉ (separateEntry identifiers old separated entry).keys := by
        intro other member
        obtain ⟨isOld, unused⟩ := later other member
        refine ⟨isOld, ?_⟩
        rw [keys, List.mem_append, List.mem_singleton, not_or]
        refine ⟨unused, fun same => ?_⟩
        rcases place with kept | moved
        · exact fresh (List.mem_map.2 ⟨other, member, same.trans kept⟩)
        · exact moved (same ▸ isOld)
      obtain ⟨more, enteredLater, becomeLater⟩ := inductionHypothesis onceLater amongLater
      rw [entered, List.append_assoc, List.singleton_append] at enteredLater becomeLater
      refine ⟨after :: more, enteredLater, .cons (becomes.mono ?_) becomeLater⟩
      rw [List.map_append]
      exact List.subset_append_left ..

end Steps

/-- Each attribute stays or is renamed, in order, and none is lost. -/
theorem forall₂_separateNames (identifiers : List String) (attributes : Table Attribute) :
    List.Forall₂ (Separated identifiers attributes.keys (separateNames identifiers attributes).keys)
      attributes.entries (separateNames identifiers attributes).entries := by
  have among : ∀ entry ∈ attributes.entries,
      entry.1 ∈ attributes.keys ∧ entry.1 ∉ (Table.empty : Table Attribute).keys :=
    fun entry member => ⟨List.mem_map_of_mem member, List.not_mem_nil⟩
  obtain ⟨more, entered, become⟩ :=
    exists_foldl_separateEntry identifiers attributes.nodup_keys among
  rw [← separateNames_eq_foldl] at entered
  rw [← entered] at become
  have same : more = (separateNames identifiers attributes).entries := entered.symm
  rw [same] at become
  exact become

namespace Context

variable {context next : Context} {root id : NodeId} {element : Element}

/-- What a visit leaves of a declaration with its lineage. -/
theorem separateElement_eq_ok (found : context.element? id = some element)
    (separated : separateElement context id = .ok next) :
    ∃ chain, context.ancestors id = .ok chain ∧ next.element? id = some { element with
      attributes := separateNames (context.childIdentifiers (id :: chain)) element.attributes } := by
  unfold separateElement at separated
  split at separated
  · cases separated
  · rename_i chain climbed
    cases separated
    exact ⟨chain, climbed, element?_modifyElement_self found _⟩

theorem ancestors_congr_of_family (frame : Frame (.keeping Element.family) context next)
    {chain : List NodeId} : next.ancestors id = .ok chain ↔ context.ancestors id = .ok chain := by
  rw [ancestors_eq_ok_iff, ancestors_eq_ok_iff, frame.options,
    lineage_congr (frame.view (·.1)).parent?]

/-- What the pass leaves of a declaration below the root. -/
theorem element?_separateAttributes (separated : separateAttributes root context = .ok next)
    (member : id ∈ context.walk root) (found : context.element? id = some element) :
    ∃ chain, context.ancestors id = .ok chain ∧ next.element? id = some { element with
      attributes := separateNames (context.childIdentifiers (id :: chain)) element.attributes } := by
  obtain ⟨beforeVisit, afterVisit, earlier, same, visited, final⟩ :=
    exists_visit_of_foldlM separateElement_elsewhere frame_family_of_separateElement
      (Arena.nodup_walk context.arena root) member separated
  obtain ⟨chain, climbed, left⟩ := separateElement_eq_ok (same.trans found) visited
  rw [childIdentifiers_congr earlier.map_element?] at left
  exact ⟨chain, (ancestors_congr_of_family earlier).1 climbed, final.trans left⟩

end Context

/-- Whether the pass goes through on a document without references to groups, when the passes before
it have, and its two contexts pass a check. -/
def separatesFlat (options : Options) (document : Bytes)
    (check : Context → Context → NodeId → Bool) : Bool :=
  surveysFlat options document fun surveyed root =>
    match [Pass.resolveTypes, .completeDeclarations].foldlM
        (fun context pass => pass.run root context) surveyed with
    | .error _ => false
    | .ok completed =>
        match separateAttributes root completed with
        | .error _ => false
        | .ok separated => check completed separated root

theorem exists_of_separatesFlat {options : Options} {document : Bytes}
    {check : Context → Context → NodeId → Bool}
    (computed : separatesFlat options document check = true) :
    ∃ completed separated root, separateAttributes root completed = .ok separated ∧
      check completed separated root = true := by
  obtain ⟨surveyed, root, -, annotated⟩ := exists_of_surveysFlat computed
  split at annotated
  · cases annotated
  · rename_i completed _
    split at annotated
    · cases annotated
    · rename_i separated outcome
      exact ⟨completed, separated, root, outcome, annotated⟩

end XmlSchema
