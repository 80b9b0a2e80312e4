import Mathlib.Data.List.Nodup
import XmlSchema.Proofs.Inheritance.Separation

/-!
# Identifiers of renamed attributes

A new name is chosen apart from the names of the other attributes, but not from their identifiers. So
attributes with distinct identifiers can come to share one: `separation_merges_identifiers`. It takes
a name that cleaning makes look like another one with suffixes, `Mimics`; where there is none among
the names of a declaration, the identifiers of its attributes stay distinct,
`distinct_of_separateAttributes`.
-/

namespace XmlSchema

/-! ## Suffixes and cleaning -/

theorem withSuffixes_add (name : String) (first second : Nat) :
    withSuffixes (withSuffixes name first) second = withSuffixes name (first + second) := by
  induction first generalizing name with
  | zero => rw [Nat.zero_add, withSuffixes]
  | succ first inductionHypothesis =>
      rw [Nat.succ_add]
      exact inductionHypothesis (name ++ attributeSuffix)

theorem withSuffixes_inj {left right : String} {count : Nat} :
    withSuffixes left count = withSuffixes right count ↔ left = right := by
  induction count generalizing left right with
  | zero => exact Iff.rfl
  | succ count inductionHypothesis =>
      exact inductionHypothesis.trans (String.append_left_inj attributeSuffix)

theorem length_withSuffixes (name : String) (count : Nat) :
    (withSuffixes name count).length = name.length + 5 * count := by
  induction count generalizing name with
  | zero => rfl
  | succ count inductionHypothesis =>
      have longer : (name ++ attributeSuffix).length = name.length + 5 := by
        rw [String.length_append]
        rfl
      rw [withSuffixes, inductionHypothesis, longer]
      omega

theorem clean_append (left right : String) : clean (left ++ right) = clean left ++ clean right := by
  unfold clean
  rw [String.toList_append, List.map_append, String.ofList_append]

/-- Cleaning leaves suffixes as they are. -/
theorem clean_withSuffixes (name : String) (count : Nat) :
    clean (withSuffixes name count) = withSuffixes (clean name) count := by
  have suffix : clean attributeSuffix = attributeSuffix := by decide +kernel
  induction count generalizing name with
  | zero => rfl
  | succ count inductionHypothesis =>
      have last := inductionHypothesis (name ++ attributeSuffix)
      rw [clean_append, suffix] at last
      exact last

/-- Whether cleaning makes a name look like another one with suffixes that it is not. -/
def Mimics (left right : String) : Prop :=
  ∃ count, clean right = withSuffixes (clean left) count ∧ right ≠ withSuffixes left count

/-- The identifiers of a name with fewer suffixes than some number. -/
def crowd (name : String) (count : Nat) : List String :=
  (List.range count).map (withSuffixes (clean name))

theorem mem_crowd_iff {name : String} {more count : Nat} :
    withSuffixes (clean name) more ∈ crowd name count ↔ more < count := by
  constructor
  · intro member
    obtain ⟨fewer, less, same⟩ := List.mem_map.1 member
    have lengths := congrArg String.length same
    rw [length_withSuffixes, length_withSuffixes] at lengths
    have fewerLess := List.mem_range.1 less
    omega
  · exact fun less => List.mem_map_of_mem (List.mem_range.2 less)

/-- Names with suffixes that have one identifier are the same, unless one of the names mimics the
other. -/
theorem withSuffixes_eq_of_not_mimics {left right : String} {first second : Nat}
    (forth : ¬ Mimics left right) (back : ¬ Mimics right left)
    (same : withSuffixes (clean left) first = withSuffixes (clean right) second) :
    withSuffixes left first = withSuffixes right second := by
  -- The one with fewer suffixes is the other one with the rest of them.
  have ordered : ∀ {left right : String} {fewer more : Nat}, fewer ≤ more → ¬ Mimics left right →
      withSuffixes (clean left) more = withSuffixes (clean right) fewer →
      withSuffixes left more = withSuffixes right fewer := by
    intro left right fewer more less apart same
    obtain ⟨rest, rfl⟩ := Nat.exists_eq_add_of_le' less
    rw [← withSuffixes_add, withSuffixes_inj] at same
    have equal : right = withSuffixes left rest := by
      by_contra different
      exact apart ⟨rest, same.symm, different⟩
    rw [equal, withSuffixes_add]
  rcases Nat.le_total second first with less | more
  · exact ordered less forth same
  · exact (ordered more back same.symm).symm

/-! ## Tables -/

/-- Whether every attribute stands under its own name and has the identifier of that name. -/
def Table.Identified (table : Table Attribute) : Prop :=
  table.Every fun key declaration => declaration.name = key ∧ declaration.cleanName = clean key

instance (table : Table Attribute) : Decidable table.Identified :=
  decidable_of_iff (∀ entry ∈ table.entries, entry.2.name = entry.1 ∧
      entry.2.cleanName = clean entry.1)
    ⟨fun each => ⟨fun found => each _ (Table.mem_entries_of_find? found)⟩,
      fun identified _ member => Table.Every.of_mem_entries identified member⟩

section Tables

variable {identifiers : List String} {attributes : Table Attribute} {entry : String × Attribute}

theorem exists_mem_of_forall₂ {α β : Type} {related : α → β → Prop} {left : List α} {right : List β}
    (pairs : List.Forall₂ related left right) {item : α} (member : item ∈ left) :
    ∃ other ∈ right, related item other := by
  induction pairs with
  | nil => cases member
  | cons first _ inductionHypothesis =>
      rcases List.mem_cons.1 member with rfl | beyond
      · exact ⟨_, List.mem_cons_self, first⟩
      · obtain ⟨other, listed, rest⟩ := inductionHypothesis beyond
        exact ⟨other, List.mem_cons_of_mem _ listed, rest⟩

/-- What stands in a table becomes something in the table of separated attributes. -/
theorem exists_mem_separateNames (identifiers : List String) (member : entry ∈ attributes.entries) :
    ∃ after ∈ (separateNames identifiers attributes).entries,
      Separated identifiers attributes.keys (separateNames identifiers attributes).keys entry
        after :=
  exists_mem_of_forall₂ (forall₂_separateNames identifiers attributes) member

/-- What stands in a table of separated attributes stood there before, or is there under a name that
is not among the old ones. -/
theorem of_mem_separateNames (member : entry ∈ (separateNames identifiers attributes).entries) :
    entry ∈ attributes.entries ∨ entry.1 ∉ attributes.keys ∧ ∃ before ∈ attributes.values,
      ∃ count, entry = (withSuffixes before.name count,
        before.rename (withSuffixes before.name count)) := by
  obtain ⟨before, listed, become⟩ :=
    exists_mem_of_forall₂ (forall₂_separateNames identifiers attributes).flip member
  cases become with
  | stays _ => exact .inl listed
  | renamed _ _ free _ =>
      exact .inr ⟨fun isOld => free (.inr isOld), _, List.mem_map_of_mem listed, _, rfl⟩

/-- A table with distinct identifiers keeps them distinct, unless a new name has the identifier of
another attribute. -/
theorem nodup_identifiers_separateNames_iff
    (distinct : (attributes.values.map Attribute.cleanName).Nodup) :
    ((separateNames identifiers attributes).values.map Attribute.cleanName).Nodup ↔
      ∀ renamed ∈ (separateNames identifiers attributes).entries, renamed.1 ∉ attributes.keys →
        ∀ other ∈ (separateNames identifiers attributes).entries, other.1 ≠ renamed.1 →
          other.2.cleanName ≠ clean renamed.1 := by
  unfold Table.values at distinct ⊢
  rw [List.map_map] at distinct ⊢
  constructor
  · intro distinctAfter renamed listed isNew other otherListed different same
    have cleaned : renamed.2.cleanName = clean renamed.1 := by
      rcases of_mem_separateNames listed with stayed | ⟨-, before, -, count, rfl⟩
      · exact absurd (List.mem_map_of_mem stayed) isNew
      · rfl
    have equal : other = renamed :=
      List.inj_on_of_nodup_map distinctAfter otherListed listed (same.trans cleaned.symm)
    exact different (congrArg Prod.fst equal)
  · intro apart
    have once : (separateNames identifiers attributes).entries.Nodup :=
      List.Nodup.of_map Prod.fst (separateNames identifiers attributes).nodup_keys
    -- A new name settles two entries of one identifier, and without one both entries are old.
    have ofRenamed : ∀ renamed ∈ (separateNames identifiers attributes).entries,
        renamed.1 ∉ attributes.keys → renamed.2.cleanName = clean renamed.1 →
        ∀ other ∈ (separateNames identifiers attributes).entries,
          other.2.cleanName = renamed.2.cleanName → other = renamed := by
      intro renamed listed isNew cleaned other otherListed same
      by_contra different
      refine apart renamed listed isNew other otherListed (fun sameKey => different ?_)
        (same.trans cleaned)
      exact List.inj_on_of_nodup_map (separateNames identifiers attributes).nodup_keys otherListed
        listed sameKey
    refine List.Nodup.map_on (fun left leftListed right rightListed same => ?_) once
    rcases of_mem_separateNames leftListed with leftStayed | ⟨leftNew, before, -, count, rfl⟩
    · rcases of_mem_separateNames rightListed with rightStayed | ⟨rightNew, before, -, count, rfl⟩
      · exact List.inj_on_of_nodup_map distinct leftStayed rightStayed same
      · exact ofRenamed _ rightListed rightNew rfl left leftListed same
    · exact (ofRenamed _ leftListed leftNew rfl right rightListed same.symm).symm

/-- Where no name mimics another one, no new name has the identifier of another attribute. -/
theorem nodup_identifiers_of_not_mimics (identified : attributes.Identified)
    (distinct : (attributes.values.map Attribute.cleanName).Nodup)
    (unlike : ∀ left ∈ attributes.keys, ∀ right ∈ attributes.keys, ¬ Mimics left right) :
    ((separateNames identifiers attributes).values.map Attribute.cleanName).Nodup := by
  have named : ∀ declaration ∈ attributes.values, declaration.name ∈ attributes.keys := by
    intro declaration listed
    obtain ⟨entry, member, rfl⟩ := List.mem_map.1 listed
    rw [(Table.Every.of_mem_entries identified member).1]
    exact List.mem_map_of_mem member
  rw [nodup_identifiers_separateNames_iff distinct]
  intro renamed listed isNew other otherListed different same
  obtain ⟨before, beforeListed, count, rfl⟩ :=
    ((of_mem_separateNames listed).resolve_left fun stayed => isNew (List.mem_map_of_mem stayed)).2
  dsimp only at different same
  rw [clean_withSuffixes] at same
  rcases of_mem_separateNames otherListed with stayed | ⟨-, otherBefore, otherBeforeListed,
      otherCount, rfl⟩
  · have isOld : other.1 ∈ attributes.keys := List.mem_map_of_mem stayed
    rw [(Table.Every.of_mem_entries identified stayed).2] at same
    have apart : withSuffixes before.name count = withSuffixes other.1 0 :=
      withSuffixes_eq_of_not_mimics (unlike _ (named before beforeListed) _ isOld)
        (unlike _ isOld _ (named before beforeListed)) same.symm
    exact different apart.symm
  · have both : withSuffixes (clean otherBefore.name) otherCount =
        withSuffixes (clean before.name) count := (clean_withSuffixes _ _).symm.trans same
    exact different (withSuffixes_eq_of_not_mimics
      (unlike _ (named otherBefore otherBeforeListed) _ (named before beforeListed))
      (unlike _ (named before beforeListed) _ (named otherBefore otherBeforeListed)) both)

section Mimics

variable (identified : attributes.Identified)
  (distinct : (attributes.values.map Attribute.cleanName).Nodup)

include identified distinct in
/-- Where identifiers are distinct, cleaning tells names apart. -/
theorem eq_of_clean_eq {left right : String} (leftOld : left ∈ attributes.keys)
    (rightOld : right ∈ attributes.keys) (same : clean left = clean right) : left = right := by
  obtain ⟨leftEntry, leftListed, rfl⟩ := List.mem_map.1 leftOld
  obtain ⟨rightEntry, rightListed, rfl⟩ := List.mem_map.1 rightOld
  unfold Table.values at distinct
  rw [List.map_map] at distinct
  refine congrArg Prod.fst (List.inj_on_of_nodup_map distinct leftListed rightListed ?_)
  calc leftEntry.2.cleanName = clean leftEntry.1 :=
        (Table.Every.of_mem_entries identified leftListed).2
    _ = clean rightEntry.1 := same
    _ = rightEntry.2.cleanName := (Table.Every.of_mem_entries identified rightListed).2.symm

include identified in
/-- Where children have the identifiers of a name with fewer suffixes, the name is pushed on to that
many, unless what it would be called then has been given away before. -/
theorem mem_keys_separateNames_crowd {name : String} {count : Nat}
    (isOld : name ∈ attributes.keys) (positive : 0 < count)
    (unused : withSuffixes name count ∉ attributes.keys) :
    withSuffixes name count ∈ (separateNames (crowd name count) attributes).keys := by
  obtain ⟨⟨name, declaration⟩, member, rfl⟩ := List.mem_map.1 isOld
  obtain ⟨sameName, sameClean⟩ := Table.Every.of_mem_entries identified member
  dsimp only at *
  obtain ⟨after, listed, become⟩ := exists_mem_separateNames (crowd name count) member
  cases become with
  | stays apart =>
      have pushed : withSuffixes (clean name) 0 ∈ crowd name count := mem_crowd_iff.2 positive
      rw [sameClean] at apart
      exact absurd pushed apart
  | @renamed _ _ most _ _ free first =>
      rw [sameName] at listed free first
      have enough : count ≤ most := by
        by_contra fewer
        refine free (.inl ?_)
        rw [clean_withSuffixes]
        exact mem_crowd_iff.2 (Nat.lt_of_not_le fewer)
      rcases Nat.eq_or_lt_of_le enough with rfl | more
      · exact List.mem_map_of_mem listed
      · rcases first count positive more with identifier | given
        · rw [clean_withSuffixes, mem_crowd_iff] at identifier
          exact absurd identifier (Nat.lt_irrefl count)
        · exact (List.mem_append.1 given).resolve_left unused

include identified distinct in
/-- Where a name mimics another one, some identifiers of children make attributes share one: those
that push the other name on to where it looks the same. -/
theorem exists_not_nodup_identifiers {left right : String} (leftOld : left ∈ attributes.keys)
    (rightOld : right ∈ attributes.keys) (mimics : Mimics left right) :
    ∃ identifiers,
      ¬ ((separateNames identifiers attributes).values.map Attribute.cleanName).Nodup := by
  obtain ⟨count, looksAlike, different⟩ := mimics
  have cleaned : clean (withSuffixes left count) = clean right :=
    (clean_withSuffixes left count).trans looksAlike.symm
  have unused : withSuffixes left count ∉ attributes.keys := fun isOld =>
    different (eq_of_clean_eq identified distinct isOld rightOld cleaned).symm
  have positive : 0 < count := by
    refine Nat.pos_of_ne_zero fun none => unused ?_
    rw [none]
    exact leftOld
  refine ⟨crowd left count, fun distinctAfter => ?_⟩
  obtain ⟨renamed, listed, same⟩ :=
    List.mem_map.1 (mem_keys_separateNames_crowd identified leftOld positive unused)
  obtain ⟨entry, entryListed, rfl⟩ := List.mem_map.1 rightOld
  have sameClean := (Table.Every.of_mem_entries identified entryListed).2
  -- The name that looks like the pushed one is not itself among those that push.
  have stays : entry ∈ (separateNames (crowd left count) attributes).entries := by
    obtain ⟨after, afterListed, become⟩ :=
      exists_mem_separateNames (crowd left count) entryListed
    cases become with
    | stays _ => exact afterListed
    | renamed shared _ _ _ =>
        rw [sameClean, looksAlike, mem_crowd_iff] at shared
        exact absurd shared (Nat.lt_irrefl count)
  refine (nodup_identifiers_separateNames_iff distinct).1 distinctAfter renamed listed
    (same ▸ unused) entry stays (same ▸ different) ?_
  rw [sameClean, same, cleaned]

end Mimics

end Tables

/-- Attributes with distinct identifiers keep them distinct exactly where no new name has the
identifier of another attribute. It has none where no name of an attribute mimics another one; and
where one does, there are children with which it has. -/
theorem distinct_of_separateAttributes {context next : Context} {root id : NodeId}
    {element after : Element} (separated : separateAttributes root context = .ok next)
    (reached : context.arena.Reaches root id) (found : context.element? id = some element)
    (present : next.element? id = some after)
    (distinct : (element.attributes.values.map Attribute.cleanName).Nodup) :
    ((after.attributes.values.map Attribute.cleanName).Nodup ↔
      ∀ renamed ∈ after.attributes.entries, renamed.1 ∉ element.attributes.keys →
        ∀ other ∈ after.attributes.entries, other.1 ≠ renamed.1 →
          other.2.cleanName ≠ clean renamed.1) ∧
    (element.attributes.Identified →
      (∀ left ∈ element.attributes.keys, ∀ right ∈ element.attributes.keys, ¬ Mimics left right) →
      (after.attributes.values.map Attribute.cleanName).Nodup) ∧
    (element.attributes.Identified →
      ∀ left ∈ element.attributes.keys, ∀ right ∈ element.attributes.keys, Mimics left right →
        ∃ identifiers, ¬ ((separateNames identifiers element.attributes).values.map
          Attribute.cleanName).Nodup) := by
  have member : id ∈ context.walk root :=
    Arena.mem_walk_iff.2 ⟨reached, Option.isSome_iff_exists.2 ⟨element, found⟩⟩
  obtain ⟨chain, -, left⟩ := Context.element?_separateAttributes separated member found
  cases left.symm.trans present
  exact ⟨nodup_identifiers_separateNames_iff distinct,
    fun identified unlike => nodup_identifiers_of_not_mimics identified distinct unlike,
    fun identified _ leftOld _ rightOld mimics =>
      exists_not_nodup_identifiers identified distinct leftOld rightOld mimics⟩

/-- An attribute `a` is renamed to `a_attr`, which is the identifier of the attribute `a-attr`. -/
theorem separation_merges_identifiers :
    ∃ (context next : Context) (root id : NodeId) (element after : Element),
      separateAttributes root context = .ok next ∧ context.arena.Reaches root id ∧
      context.element? id = some element ∧ next.element? id = some after ∧
      (element.attributes.values.map Attribute.cleanName).Nodup ∧
      ¬ (after.attributes.values.map Attribute.cleanName).Nodup := by
  have computed : separatesFlat .standard (schemaDocument
      ["<s:complexType name='T'><s:sequence><s:element name='a'/></s:sequence>",
        "<s:attribute name='a'/><s:attribute name='a-attr'/></s:complexType>"])
      (fun context next root => (context.walk root).any fun id =>
        (context.element? id).any (fun element =>
          decide ((element.attributes.values.map Attribute.cleanName).Nodup)) &&
        (next.element? id).any fun after =>
          decide (¬ (after.attributes.values.map Attribute.cleanName).Nodup)) = true := by
    decide +kernel
  obtain ⟨context, next, root, separated, checked⟩ := exists_of_separatesFlat computed
  simp only [List.any_eq_true, Bool.and_eq_true, Option.any_eq_true, decide_eq_true_eq] at checked
  obtain ⟨id, member, ⟨element, found, distinct⟩, after, present, merged⟩ := checked
  exact ⟨context, next, root, id, element, after, separated, (Arena.mem_walk_iff.1 member).1, found,
    present, distinct, merged⟩

/-- An attribute `a-b` is renamed beside an attribute `a_b-attrs`, which has another identifier. -/
theorem distinct_of_separateAttributes_hyphen :
    ∃ (context next : Context) (root id : NodeId) (element after : Element),
      separateAttributes root context = .ok next ∧ context.arena.Reaches root id ∧
      context.element? id = some element ∧ next.element? id = some after ∧
      (element.attributes.values.map Attribute.cleanName).Nodup ∧ element.attributes.Identified ∧
      after.attributes.keys = ["a-b_attr", "a_b-attrs"] ∧
      ∀ renamed ∈ after.attributes.entries, renamed.1 ∉ element.attributes.keys →
        ∀ other ∈ after.attributes.entries, other.1 ≠ renamed.1 →
          other.2.cleanName ≠ clean renamed.1 := by
  have computed : separatesFlat .standard (schemaDocument
      ["<s:complexType name='T'><s:sequence><s:element name='a.b'/></s:sequence>",
        "<s:attribute name='a-b'/><s:attribute name='a_b-attrs'/></s:complexType>"])
      (fun context next root => (context.walk root).any fun id =>
        (context.element? id).any (fun element =>
          decide ((element.attributes.values.map Attribute.cleanName).Nodup ∧
            element.attributes.Identified)) &&
        (next.element? id).any fun after => decide (
          after.attributes.keys = ["a-b_attr", "a_b-attrs"] ∧
          (after.attributes.values.map Attribute.cleanName).Nodup)) = true := by
    decide +kernel
  obtain ⟨context, next, root, separated, checked⟩ := exists_of_separatesFlat computed
  simp only [List.any_eq_true, Bool.and_eq_true, Option.any_eq_true, decide_eq_true_eq] at checked
  obtain ⟨id, member, ⟨element, found, before, identified⟩, after, present, keys, distinctAfter⟩ :=
    checked
  have reached := (Arena.mem_walk_iff.1 member).1
  obtain ⟨exactly, -, -⟩ := distinct_of_separateAttributes separated reached found present before
  exact ⟨context, next, root, id, element, after, separated, reached, found, present, before,
    identified, keys, exactly.1 distinctAfter⟩

end XmlSchema
