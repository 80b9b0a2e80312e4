import XmlSchema.Annotation.Index
import XmlSchema.Proofs.DocumentOrder

/-!
# What the index holds

A name is entered into the index for a declaration of that name which others can refer to, and only
by the walk over the declarations. An index made from nothing holds each name such a declaration
bears, for the first that bears it in depth-first order, and indexing again changes nothing:
`indexElements_of_empty`. `Context.Indexed` is what the walk preserves on the way.
-/

namespace XmlSchema

variable {context : Context} {name : String} {id entered : NodeId}

/-! ## The index of a tree -/

namespace Context

/-- A declaration bears its name in the index when it stands directly under the schema or has a
structure of its own. -/
def Bears (context : Context) (name : String) (id : NodeId) : Prop :=
  ∃ element, context.element? id = some element ∧ element.name = name ∧
    (element.isTopLevel = true ∨ element.children ≠ [] ∨ element.attributes.isEmpty = false ∨
      element.base? ≠ none)

/-- The declaration bears the name and none before it in the order does. -/
def FirstBearer (context : Context) (order : List NodeId) (name : String) (id : NodeId) : Prop :=
  ∃ before after, order = before ++ id :: after ∧ context.Bears name id ∧
    ∀ earlier ∈ before, ¬ context.Bears name earlier

theorem bears_iff : context.Bears name id ↔ ∃ element, context.element? id = some element ∧
    element.isReferable = true ∧ element.name = name := by
  unfold Bears Element.isReferable
  refine exists_congr fun element => and_congr_right fun _ => ?_
  rw [and_comm]
  refine and_congr_left fun _ => ?_
  simp [Option.isSome_iff_ne_none, or_assoc]

/-- Bearing a name is a matter of the nodes alone. -/
theorem Bears.of_element? {other : Context} (bears : context.Bears name id)
    (same : other.element? id = context.element? id) : other.Bears name id := by
  obtain ⟨element, present, facts⟩ := bears
  exact ⟨element, same.trans present, facts⟩

/-- A declaration bears one name. -/
theorem Bears.name_eq {other : String} (bears : context.Bears name id)
    (otherBears : context.Bears other id) : name = other := by
  obtain ⟨element, present, rfl, -⟩ := bears
  obtain ⟨same, otherPresent, rfl, -⟩ := otherBears
  rw [Option.some.inj (present.symm.trans otherPresent)]

theorem FirstBearer.bears {order : List NodeId} (first : context.FirstBearer order name id) :
    context.Bears name id := by
  obtain ⟨_, _, _, bears, _⟩ := first
  exact bears

theorem FirstBearer.mem {order : List NodeId} (first : context.FirstBearer order name id) :
    id ∈ order := by
  obtain ⟨before, after, rfl, _, _⟩ := first
  simp

/-- One more declaration is the first bearer only of what none bore before it. -/
theorem firstBearer_append_singleton {order : List NodeId} {last : NodeId} :
    context.FirstBearer (order ++ [last]) name id ↔
      context.FirstBearer order name id ∨
        (id = last ∧ context.Bears name last ∧ ∀ earlier ∈ order, ¬ context.Bears name earlier) := by
  constructor
  · rintro ⟨before, after, split, bears, unborne⟩
    rcases List.eq_nil_or_concat after with rfl | ⟨shorter, final, rfl⟩
    · obtain ⟨rfl, same⟩ := List.append_inj' split rfl
      obtain rfl := (List.cons.inj same).1
      exact .inr ⟨rfl, bears, unborne⟩
    · have split' : order ++ [last] = (before ++ id :: shorter) ++ [final] := by simpa using split
      obtain ⟨rfl, -⟩ := List.append_inj' split' rfl
      exact .inl ⟨before, shorter, rfl, bears, unborne⟩
  · rintro (⟨before, after, rfl, bears, unborne⟩ | ⟨rfl, bears, unborne⟩)
    · exact ⟨before, after ++ [last], by simp, bears, unborne⟩
    · exact ⟨order, [], rfl, bears, unborne⟩

/-- What some declaration bears, one of them bears first. -/
theorem exists_firstBearer {order : List NodeId} (member : id ∈ order)
    (bears : context.Bears name id) : ∃ first, context.FirstBearer order name first := by
  induction order with
  | nil => cases member
  | cons head rest inductionHypothesis =>
      by_cases here : context.Bears name head
      · exact ⟨head, [], rest, rfl, here, by simp⟩
      · have later : id ∈ rest := (List.mem_cons.1 member).resolve_left fun same =>
          here (same ▸ bears)
        obtain ⟨first, before, after, rfl, firstBears, unborne⟩ := inductionHypothesis later
        refine ⟨first, head :: before, after, rfl, firstBears, ?_⟩
        simpa [here] using unborne

/-- The index holds exactly the first bearers of an order, in that order, and nothing but the index
has changed. -/
structure Indexed (context : Context) (order : List NodeId) (current : Context) : Prop where
  rest : current = { context with elementIndex := current.elementIndex }
  entered : ∀ name id, current.elementIndex.find? name = some id ↔
    name ≠ "" ∧ context.FirstBearer order name id
  ordered : current.elementIndex.values.Sublist order

end Context

theorem indexElement_of_not_bears (unborne : ∀ name, name ≠ "" → ¬ context.Bears name id) :
    indexElement context id = context := by
  unfold indexElement
  split
  · rename_i element present
    split
    · rename_i referable
      by_cases named : element.name = ""
      · simp [Context.register, Context.canRegister, named]
      · exact absurd (Context.bears_iff.2 ⟨element, present, referable, rfl⟩) (unborne _ named)
    · rfl
  · rfl

theorem indexElement_of_bears (bears : context.Bears name id) :
    indexElement context id = context.register name id := by
  obtain ⟨element, present, referable, rfl⟩ := Context.bears_iff.1 bears
  unfold indexElement
  rw [present]
  exact if_pos referable

theorem register_of_taken (taken : context.elementIndex.find? name = some entered) :
    context.register name id = context := by
  have blocked : context.canRegister name = false := by
    simp [Context.canRegister, Table.contains_of_find? taken]
  rw [Context.register, blocked]
  rfl

theorem register_of_free (named : name ≠ "") (free : context.elementIndex.find? name = none) :
    context.register name id =
      { context with elementIndex := context.elementIndex.insert name id } := by
  have allowed : context.canRegister name = true := by
    simp [Context.canRegister, Table.contains, named, free]
  rw [Context.register, if_pos allowed]

namespace Context.Indexed

variable {order : List NodeId} {current : Context}

theorem start (empty : context.elementIndex = .empty) : Indexed context [] context where
  rest := rfl
  entered := fun name id => by
    simp [empty, Context.FirstBearer]
  ordered := by
    rw [empty]
    exact .slnil

/-- Nothing is entered under a name before a declaration bears it. -/
theorem find?_eq_none (indexed : Indexed context order current)
    (unborne : ∀ earlier ∈ order, ¬ context.Bears name earlier) :
    current.elementIndex.find? name = none := by
  rw [Option.eq_none_iff_forall_ne_some]
  intro id found
  have first := ((indexed.entered name id).1 found).2
  exact unborne id first.mem first.bears

theorem bears_iff (indexed : Indexed context order current) :
    current.Bears name id ↔ context.Bears name id := by
  have same : current.element? id = context.element? id := by rw [indexed.rest]; rfl
  exact ⟨fun bears => bears.of_element? same.symm, fun bears => bears.of_element? same⟩

/-- A declaration is passed over when it bears no name, or only a name that was borne before. -/
theorem skip (indexed : Indexed context order current)
    (known : ∀ name, name ≠ "" → context.Bears name id →
      ∃ earlier ∈ order, context.Bears name earlier) :
    Indexed context (order ++ [id]) current := by
  refine ⟨indexed.rest, fun name otherId => ?_, indexed.ordered.trans (List.sublist_append_left ..)⟩
  rw [indexed.entered, Context.firstBearer_append_singleton]
  refine and_congr_right fun named => (or_iff_left ?_).symm
  rintro ⟨-, bears, unborne⟩
  obtain ⟨earlier, member, earlierBears⟩ := known name named bears
  exact unborne earlier member earlierBears

/-- The first declaration to bear a name is entered under it, behind all others. -/
theorem enter (indexed : Indexed context order current) (named : name ≠ "")
    (bears : context.Bears name id) (unborne : ∀ earlier ∈ order, ¬ context.Bears name earlier) :
    Indexed context (order ++ [id])
      { current with elementIndex := current.elementIndex.insert name id } where
  rest := congrArg
    (fun context => { context with elementIndex := current.elementIndex.insert name id })
    indexed.rest
  entered := fun other otherId => by
    show (current.elementIndex.insert name id).find? other = some otherId ↔ _
    rw [Table.find?_insert, Context.firstBearer_append_singleton]
    split
    · rename_i same
      subst same
      constructor
      · rintro ⟨⟩
        exact ⟨named, .inr ⟨rfl, bears, unborne⟩⟩
      · rintro ⟨-, first | ⟨rfl, -, -⟩⟩
        · exact absurd first.bears (unborne otherId first.mem)
        · rfl
    · rename_i different
      rw [indexed.entered]
      refine and_congr_right fun _ => (or_iff_left ?_).symm
      rintro ⟨rfl, otherBears, -⟩
      exact different (otherBears.name_eq bears)
  ordered := by
    have fresh : name ∉ current.elementIndex.keys := fun member => by
      have taken := (Table.contains_iff_mem_keys _ _).2 member
      rw [Table.contains, indexed.find?_eq_none unborne] at taken
      cases taken
    show (List.map Prod.snd _).Sublist _
    rw [Table.entries_insert_of_not_mem fresh, List.map_append]
    exact indexed.ordered.append (.refl _)

theorem step (indexed : Indexed context order current) (id : NodeId) :
    Indexed context (order ++ [id]) (indexElement current id) := by
  by_cases bearing : ∃ name, name ≠ "" ∧ context.Bears name id
  · obtain ⟨name, named, bears⟩ := bearing
    rw [indexElement_of_bears (indexed.bears_iff.2 bears)]
    by_cases before : ∃ earlier ∈ order, context.Bears name earlier
    · obtain ⟨earlier, member, earlierBears⟩ := before
      obtain ⟨first, isFirst⟩ := Context.exists_firstBearer member earlierBears
      rw [register_of_taken ((indexed.entered name first).2 ⟨named, isFirst⟩)]
      exact indexed.skip fun other _ otherBears =>
        ⟨earlier, member, otherBears.name_eq bears ▸ earlierBears⟩
    · have unborne : ∀ earlier ∈ order, ¬ context.Bears name earlier :=
        fun earlier member earlierBears => before ⟨earlier, member, earlierBears⟩
      rw [register_of_free named (indexed.find?_eq_none unborne)]
      exact indexed.enter named bears unborne
  · rw [indexElement_of_not_bears fun name named bears =>
      bearing ⟨name, named, indexed.bears_iff.1 bears⟩]
    exact indexed.skip fun name named bears => absurd ⟨name, named, bears⟩ bearing

theorem foldl (indexed : Indexed context order current) (later : List NodeId) :
    Indexed context (order ++ later) (later.foldl indexElement current) := by
  induction later generalizing order current with
  | nil => simpa using indexed
  | cons id rest inductionHypothesis =>
      simpa using inductionHypothesis (indexed.step id)

/-- What has been indexed is not indexed again. -/
theorem indexElement_eq (indexed : Indexed context order current) (member : id ∈ order) :
    indexElement current id = current := by
  by_cases bearing : ∃ name, name ≠ "" ∧ context.Bears name id
  · obtain ⟨name, named, bears⟩ := bearing
    obtain ⟨first, isFirst⟩ := Context.exists_firstBearer member bears
    rw [indexElement_of_bears (indexed.bears_iff.2 bears)]
    exact register_of_taken ((indexed.entered name first).2 ⟨named, isFirst⟩)
  · exact indexElement_of_not_bears fun name named bears =>
      bearing ⟨name, named, indexed.bears_iff.1 bears⟩

end Context.Indexed

/-- Indexing again changes nothing. -/
theorem Context.Indexed.foldl_eq {order again : List NodeId} {current : Context}
    (indexed : Context.Indexed context order current) (known : ∀ id ∈ again, id ∈ order) :
    again.foldl indexElement current = current := by
  induction again with
  | nil => rfl
  | cons id rest inductionHypothesis =>
      rw [List.foldl_cons, indexed.indexElement_eq (known id (List.mem_cons_self ..))]
      exact inductionHypothesis fun other member => known other (List.mem_cons_of_mem _ member)

/-- There is one depth-first order of the declarations below a root. In it, an index made from
nothing holds a name exactly if a declaration that is reached bears it and it is not empty, under it
the first that bears it, and the names in the order of those declarations. Nothing else changes, and
indexing again changes nothing at all. -/
theorem indexElements_of_empty (context : Context) (root : NodeId)
    (empty : context.elementIndex = .empty) :
    ∃ order, (∀ other, context.arena.Explores [] [root] other ↔ other = order) ∧
      (∀ name, (indexElements root context).elementIndex.contains name = true ↔
        name ≠ "" ∧ ∃ id, context.arena.Reaches root id ∧ context.Bears name id) ∧
      (∀ name id, (indexElements root context).elementIndex.find? name = some id ↔
        name ≠ "" ∧ context.FirstBearer order name id) ∧
      (indexElements root context).elementIndex.values.Sublist order ∧ order.Nodup ∧
      indexElements root context =
        { context with elementIndex := (indexElements root context).elementIndex } ∧
      indexElements root (indexElements root context) = indexElements root context := by
  have indexed : context.Indexed (context.walk root) (indexElements root context) :=
    (Context.Indexed.start empty).foldl (context.walk root)
  have sameWalk : (indexElements root context).walk root = context.walk root := by
    rw [indexed.rest]
    rfl
  refine ⟨context.walk root, fun other => Arena.explores_iff, fun name => ?_, indexed.entered,
    indexed.ordered, Arena.nodup_walk context.arena root, indexed.rest, ?_⟩
  · rw [Table.contains, Option.isSome_iff_exists]
    constructor
    · rintro ⟨id, found⟩
      obtain ⟨named, first⟩ := (indexed.entered name id).1 found
      exact ⟨named, id, (Arena.mem_walk_iff.1 first.mem).1, first.bears⟩
    · rintro ⟨named, id, reached, bears⟩
      have declared : (context.arena.element? id).isSome := by
        obtain ⟨element, present, -⟩ := bears
        exact Option.isSome_iff_exists.2 ⟨element, present⟩
      obtain ⟨first, isFirst⟩ :=
        Context.exists_firstBearer (Arena.mem_walk_iff.2 ⟨reached, declared⟩) bears
      exact ⟨first, (indexed.entered name first).2 ⟨named, isFirst⟩⟩
  · rw [indexElements.eq_1 root (indexElements root context), sameWalk]
    exact indexed.foldl_eq fun _ member => member

/-- A schema of two declarations. The one named a contains itself and one named b, which the other,
itself named b, shares. -/
def sharingContext : Context :=
  let element (name : String) := Element.ofTag .element (.ofList [("name", name)]) .standard
  let schema := Element.ofTag .schema .empty .standard
  let nodes :=
    [{ schema with children := [⟨1⟩, ⟨2⟩] },
      { element "a" with isTopLevel := true, children := [⟨3⟩, ⟨1⟩] },
      { element "b" with isTopLevel := true, children := [⟨3⟩] },
      { element "b" with base? := some "T" }]
  { Context.initial .standard with arena := ⟨(nodes.map Node.declaration).toArray⟩ }

/-- The declaration within a comes first in depth-first order, so b is entered for it. -/
theorem indexElements_of_empty_sharing :
    sharingContext.elementIndex = .empty ∧
      (indexElements ⟨0⟩ sharingContext).elementIndex.entries = [("a", ⟨1⟩), ("b", ⟨3⟩)] ∧
      sharingContext.FirstBearer [⟨0⟩, ⟨1⟩, ⟨3⟩, ⟨2⟩] "b" ⟨3⟩ ∧
      indexElements ⟨0⟩ (indexElements ⟨0⟩ sharingContext) =
        indexElements ⟨0⟩ sharingContext := by
  have entries : (indexElements ⟨0⟩ sharingContext).elementIndex.entries =
      [("a", ⟨1⟩), ("b", ⟨3⟩)] := by decide +kernel
  obtain ⟨order, unique, -, first, -, -, -, again⟩ :=
    indexElements_of_empty sharingContext ⟨0⟩ rfl
  have walked : sharingContext.arena.walkFrom [] [⟨0⟩] = [⟨0⟩, ⟨1⟩, ⟨3⟩, ⟨2⟩] := by decide +kernel
  have same : order = [⟨0⟩, ⟨1⟩, ⟨3⟩, ⟨2⟩] :=
    (((unique _).1 (Arena.explores_walkFrom _ _ _)).symm).trans walked
  have found : (indexElements ⟨0⟩ sharingContext).elementIndex.find? "b" = some ⟨3⟩ :=
    Table.find?_eq_some_iff.2 (by rw [entries]; decide)
  exact ⟨rfl, entries, same ▸ ((first "b" ⟨3⟩).1 found).2, again⟩

end XmlSchema
