import XmlSchema.Proofs.Groups.Runs
import XmlSchema.Proofs.Reachability

/-!
# What expansion leaves without references

During the pass each node has the children that it had in the beginning, or children of which none
refers to a group; in the latter case it keeps them, and so does every node inside which the
expansion is: `Expands.advances`. In the end no definition of a group and no node reached from the
root has a reference among its children, `ExpandsGroups.plain`.
-/

namespace XmlSchema

/-- No handle of a list is a reference to a group. -/
def Context.Plain (context : Context) (handles : List NodeId) : Prop :=
  ∀ id ∈ handles, context.groupReference? id = none

/-- A context in the course of the pass, and the one with which it began. -/
structure Expanding (origin current : Context) : Prop where
  options : current.options = origin.options
  references : ∀ id, current.groupReference? id = origin.groupReference? id
  names : ∀ id, (current.element? id).map Element.name = (origin.element? id).map Element.name
  children : ∀ id, current.children id = origin.children id ∨ origin.Plain (current.children id)

variable {groups : Table ElementGroup} {path visited pending members : List NodeId}
  {task : GroupTask} {origin before between after current : Context} {notes : List GroupNote}

theorem Context.children_of_undeclared {id : NodeId} (undeclared : current.element? id = none) :
    current.children id = [] := by
  unfold Context.children
  rw [undeclared]
  rfl

theorem Context.reaches_of_mem_children {root parent child : NodeId}
    (reached : current.arena.Reaches root parent) (member : child ∈ current.children parent) :
    current.arena.Reaches root child := by
  cases found : current.element? parent with
  | none =>
      unfold Context.children at member
      rw [found] at member
      cases member
  | some element => exact .child reached found (Context.children_of_element? found ▸ member)

theorem element?_setChildren (context : Context) (id other : NodeId) (members : List NodeId) :
    (context.modifyElement id ({ · with children := members })).element? other =
      if other = id then (context.element? id).map ({ · with children := members })
      else context.element? other :=
  Arena.element?_modifyElement context.arena id other ({ · with children := members })

namespace Expanding

theorem refl (origin : Context) : Expanding origin origin :=
  ⟨rfl, fun _ => rfl, fun _ => rfl, fun _ => .inl rfl⟩

theorem warn (expanding : Expanding origin current) (warning : Warning) :
    Expanding origin (current.warn warning) :=
  ⟨expanding.options, expanding.references, expanding.names, expanding.children⟩

theorem declared (expanding : Expanding origin current) (id : NodeId) :
    (current.element? id).isSome = (origin.element? id).isSome := by
  have same := congrArg Option.isSome (expanding.names id)
  rw [Option.isSome_map, Option.isSome_map] at same
  exact same

theorem setChildren (expanding : Expanding origin current) (id : NodeId)
    (plain : origin.Plain members) :
    Expanding origin (current.modifyElement id ({ · with children := members })) where
  options := expanding.options
  references other := by
    rw [← expanding.references]
    unfold Context.groupReference?
    rw [element?_setChildren]
    by_cases same : other = id
    · subst same
      rw [if_pos rfl]
      cases current.element? other <;> rfl
    · rw [if_neg same]
  names other := by
    rw [← expanding.names, element?_setChildren]
    by_cases same : other = id
    · subst same
      rw [if_pos rfl]
      cases current.element? other <;> rfl
    · rw [if_neg same]
  children other := by
    rw [children_setChildren]
    split
    · exact .inr plain
    · exact expanding.children other

theorem plain_iff (expanding : Expanding origin current) {handles : List NodeId} :
    (∀ id ∈ handles, current.groupReference? id = none) ↔ origin.Plain handles := by
  unfold Context.Plain
  exact forall_congr' fun id => by rw [expanding.references]

theorem not_plain (expanding : Expanding origin current) {handles : List NodeId}
    (refers : ∃ child ∈ handles, current.groupReference? child ≠ none) :
    ¬ origin.Plain handles := by
  intro plain
  obtain ⟨child, member, isReference⟩ := refers
  rw [expanding.references] at isReference
  exact isReference (plain child member)

/-- Where a node has a reference among its children, they are as they were in the beginning. -/
theorem children_eq {id : NodeId} {element : Element} (expanding : Expanding origin current)
    (found : current.element? id = some element)
    (refers : ∃ child ∈ element.children, current.groupReference? child ≠ none) :
    element.children = origin.children id := by
  have unfinished := expanding.not_plain refers
  rw [← Context.children_of_element? found] at unfinished ⊢
  exact (expanding.children id).resolve_right unfinished

end Expanding

/-- What the expansion of a task does to the children of nodes. -/
structure Advances (origin : Context) (path : List NodeId) (task : GroupTask) (before : Context)
    (members : List NodeId) (after : Context) : Prop where
  expanding : Expanding origin after
  plain : origin.Plain members
  onPath : ∀ id ∈ path, task ≠ .node id → after.children id = before.children id
  settled : ∀ id, origin.Plain (before.children id) → after.children id = before.children id
  result : ∀ id, task = .node id → after.children id = members

theorem Expands.advances (expands : Expands groups path task before notes members after)
    (expanding : Expanding origin before) : Advances origin path task before members after := by
  induction expands with
  | flat plain =>
      refine ⟨expanding, expanding.plain_iff.1 plain, fun _ _ _ => rfl, fun _ _ => rfl, ?_⟩
      rintro other ⟨⟩
      rfl
  | @node path id context between element notes members found refers inside inductionHypothesis =>
      obtain ⟨advanced, plain, onPath, settled, -⟩ := inductionHypothesis expanding
      have declared : (between.element? id).isSome = true := by
        rw [advanced.declared, ← expanding.declared, found]
        rfl
      refine ⟨advanced.setChildren id plain, plain, ?_, ?_, ?_⟩
      · intro other member different
        have elsewhere : ¬ (other = id ∧ (between.element? id).isSome = true) :=
          fun both => different (both.1 ▸ rfl)
        rw [children_setChildren, if_neg elsewhere]
        exact onPath other member (by simp)
      · -- A node without references has not got here, so the node that is written is another one.
        intro other plainBefore
        have elsewhere : ¬ (other = id ∧ (between.element? id).isSome = true) := by
          rintro ⟨rfl, -⟩
          rw [Context.children_of_element? found] at plainBefore
          exact expanding.not_plain refers plainBefore
        rw [children_setChildren, if_neg elsewhere]
        exact settled other plainBefore
      · rintro other ⟨⟩
        rw [children_setChildren, if_pos ⟨rfl, declared⟩]
  | done =>
      exact ⟨expanding, fun _ member => absurd member List.not_mem_nil, fun _ _ _ => rfl,
        fun _ _ => rfl, fun _ same => by cases same⟩
  | keep plain _ inductionHypothesis =>
      obtain ⟨advanced, rest, onPath, settled, -⟩ := inductionHypothesis expanding
      refine ⟨advanced, List.forall_mem_cons.2 ⟨?_, rest⟩, fun id member _ =>
        onPath id member (by simp), settled, fun _ same => by cases same⟩
      rw [← expanding.references]
      exact plain
  | undefined _ _ _ inductionHypothesis =>
      obtain ⟨advanced, plain, onPath, settled, -⟩ := inductionHypothesis (expanding.warn _)
      exact ⟨advanced, plain, fun id member _ => onPath id member (by simp), settled,
        fun _ same => by cases same⟩
  | circular _ _ _ _ inductionHypothesis =>
      obtain ⟨advanced, plain, onPath, settled, -⟩ := inductionHypothesis (expanding.warn _)
      exact ⟨advanced, plain, fun id member _ => onPath id member (by simp), settled,
        fun _ same => by cases same⟩
  | nested _ _ new _ _ innerHypothesis restHypothesis =>
      obtain ⟨advanced, innerPlain, innerPath, innerSettled, -⟩ := innerHypothesis expanding
      obtain ⟨advancedRest, restPlain, restPath, restSettled, -⟩ := restHypothesis advanced
      refine ⟨advancedRest, fun id member => ?_, fun id member _ => ?_, fun id plain => ?_,
        fun _ same => by cases same⟩
      · exact (List.mem_append.1 member).elim (innerPlain id) (restPlain id)
      · rw [restPath id member (by simp)]
        refine innerPath id (List.mem_cons_of_mem _ member) fun same => new ?_
        cases same
        exact member
      · have unchanged := innerSettled id plain
        rw [restSettled id (unchanged ▸ plain), unchanged]

/-! ## The whole pass -/

/-- What the expansion of a node keeps, the expansion of definitions in a row keeps. Only warnings
of some kind are allowed in it. -/
theorem ExpandsEach.keeps (Allowed : GroupNote → Prop) (Keeps : Context → Prop)
    (node : ∀ {path members : List NodeId} {id : NodeId} {before after : Context}
      {notes : List GroupNote}, Expands groups path (.node id) before notes members after →
      Expanding origin before → (∀ note ∈ notes, Allowed note) → Keeps before → Keeps after)
    {definitions : List NodeId} (expands : ExpandsEach groups definitions before notes after)
    (expanding : Expanding origin before) (allowed : ∀ note ∈ notes, Allowed note)
    (kept : Keeps before) : Keeps after := by
  induction expands with
  | done => exact kept
  | next first _ inductionHypothesis =>
      obtain ⟨early, late⟩ := List.forall_mem_append.1 allowed
      exact inductionHypothesis (first.advances expanding).expanding late
        (node first expanding early kept)

/-- What the expansion of a node keeps, the expansion of all nodes below the root keeps. -/
theorem ExpandsBelow.keeps (Allowed : GroupNote → Prop) (Keeps : Context → Prop)
    (node : ∀ {path members : List NodeId} {id : NodeId} {before after : Context}
      {notes : List GroupNote}, Expands groups path (.node id) before notes members after →
      Expanding origin before → (∀ note ∈ notes, Allowed note) → Keeps before → Keeps after)
    (expands : ExpandsBelow groups visited pending before notes after)
    (expanding : Expanding origin before) (allowed : ∀ note ∈ notes, Allowed note)
    (kept : Keeps before) : Keeps after := by
  induction expands with
  | done => exact kept
  | seen _ _ inductionHypothesis => exact inductionHypothesis expanding allowed kept
  | absent _ expanded _ _ inductionHypothesis | visit _ expanded _ _ inductionHypothesis =>
      obtain ⟨early, late⟩ := List.forall_mem_append.1 allowed
      exact inductionHypothesis (expanded.advances expanding).expanding late
        (node expanded expanding early kept)

theorem ExpandsEach.advances {definitions : List NodeId}
    (expands : ExpandsEach groups definitions before notes after)
    (expanding : Expanding origin before) :
    Expanding origin after ∧
      (∀ id, origin.Plain (before.children id) → after.children id = before.children id) ∧
      ∀ definition ∈ definitions, origin.Plain (after.children definition) := by
  induction expands with
  | done => exact ⟨expanding, fun _ _ => rfl, fun _ member => absurd member List.not_mem_nil⟩
  | @next definition rest members before between after early late first others
      inductionHypothesis =>
      obtain ⟨advanced, plain, -, settled, result⟩ := first.advances expanding
      obtain ⟨advancedRest, restSettled, restPlain⟩ := inductionHypothesis advanced
      refine ⟨advancedRest, fun id plainBefore => ?_, List.forall_mem_cons.2 ⟨?_, restPlain⟩⟩
      · have unchanged := settled id plainBefore
        rw [restSettled id (unchanged ▸ plainBefore), unchanged]
      · -- What follows finds the definition without references and leaves it alone.
        have plainBetween : origin.Plain (between.children definition) :=
          (result definition rfl).symm ▸ plain
        rw [restSettled definition plainBetween]
        exact plainBetween

/-- The visited nodes have no references among their children, and what is inside them is visited or
pending. -/
structure Frontier (origin : Context) (visited pending : List NodeId) (current : Context) :
    Prop where
  plain : ∀ id ∈ visited, origin.Plain (current.children id)
  closed : ∀ id ∈ visited, ∀ child ∈ current.children id, (origin.element? child).isSome = true →
    child ∈ visited ∨ child ∈ pending

namespace Frontier

variable {id : NodeId}

theorem skip (frontier : Frontier origin visited (id :: pending) current)
    (settled : (origin.element? id).isSome = true → id ∈ visited) :
    Frontier origin visited pending current where
  plain := frontier.plain
  closed parent seen child member declared := by
    rcases frontier.closed parent seen child member declared with inside | waiting
    · exact .inl inside
    · rcases List.mem_cons.1 waiting with rfl | later
      · exact .inl (settled declared)
      · exact .inr later

theorem advance (frontier : Frontier origin visited pending before)
    (settled : ∀ id, origin.Plain (before.children id) → after.children id = before.children id) :
    Frontier origin visited pending after where
  plain id seen := by
    rw [settled id (frontier.plain id seen)]
    exact frontier.plain id seen
  closed id seen := by
    rw [settled id (frontier.plain id seen)]
    exact frontier.closed id seen

theorem visit (frontier : Frontier origin visited (id :: pending) current)
    (plain : origin.Plain (current.children id)) :
    Frontier origin (id :: visited) ((current.children id).reverse ++ pending) current where
  plain := List.forall_mem_cons.2 ⟨plain, frontier.plain⟩
  closed parent seen child member declared := by
    rcases List.mem_cons.1 seen with rfl | earlier
    · exact .inr (List.mem_append_left _ (List.mem_reverse.2 member))
    · rcases frontier.closed parent earlier child member declared with inside | waiting
      · exact .inl (List.mem_cons_of_mem _ inside)
      · rcases List.mem_cons.1 waiting with rfl | later
        · exact .inl (List.mem_cons_self ..)
        · exact .inr (List.mem_append_right _ later)

end Frontier

theorem ExpandsBelow.advances
    (expands : ExpandsBelow groups visited pending before notes after)
    (expanding : Expanding origin before) :
    Expanding origin after ∧
      (∀ id, origin.Plain (before.children id) → after.children id = before.children id) ∧
      (Frontier origin visited pending before → ∃ reached, Frontier origin reached [] after ∧
        (∀ id ∈ visited, id ∈ reached) ∧
        ∀ id ∈ pending, (origin.element? id).isSome = true → id ∈ reached) := by
  induction expands with
  | @done visited context =>
      exact ⟨expanding, fun _ _ => rfl, fun frontier => ⟨visited, frontier, fun _ seen => seen,
        fun _ member => absurd member List.not_mem_nil⟩⟩
  | seen seen _ inductionHypothesis =>
      obtain ⟨advanced, settled, closing⟩ := inductionHypothesis expanding
      refine ⟨advanced, settled, fun frontier => ?_⟩
      obtain ⟨reached, closed, fromVisited, fromPending⟩ := closing (frontier.skip fun _ => seen)
      exact ⟨reached, closed, fromVisited,
        List.forall_mem_cons.2 ⟨fun _ => fromVisited _ seen, fromPending⟩⟩
  | @absent visited pending members id before next after early late new expanded absent rest
      inductionHypothesis =>
      obtain ⟨advanced, -, -, settled, -⟩ := expanded.advances expanding
      obtain ⟨advancedRest, restSettled, closing⟩ := inductionHypothesis advanced
      have undeclared : ¬ (origin.element? id).isSome = true := by
        rw [← advanced.declared, absent]
        decide
      refine ⟨advancedRest, fun other plain => ?_, fun frontier => ?_⟩
      · have unchanged := settled other plain
        rw [restSettled other (unchanged ▸ plain), unchanged]
      · obtain ⟨reached, closed, fromVisited, fromPending⟩ := closing
          ((frontier.skip fun declared => absurd declared undeclared).advance settled)
        exact ⟨reached, closed, fromVisited,
          List.forall_mem_cons.2 ⟨fun declared => absurd declared undeclared, fromPending⟩⟩
  | @visit visited pending members id element before next after early late new expanded found rest
      inductionHypothesis =>
      obtain ⟨advanced, plain, -, settled, result⟩ := expanded.advances expanding
      obtain ⟨advancedRest, restSettled, closing⟩ := inductionHypothesis advanced
      refine ⟨advancedRest, fun other plain => ?_, fun frontier => ?_⟩
      · have unchanged := settled other plain
        rw [restSettled other (unchanged ▸ plain), unchanged]
      · have visited := (frontier.advance settled).visit ((result id rfl).symm ▸ plain)
        rw [Context.children_of_element? found] at visited
        obtain ⟨reached, closed, fromVisited, fromPending⟩ := closing visited
        refine ⟨reached, closed, fun other seen => fromVisited other (List.mem_cons_of_mem _ seen),
          List.forall_mem_cons.2 ⟨fun _ => fromVisited id (List.mem_cons_self ..), ?_⟩⟩
        exact fun other waiting => fromPending other (List.mem_append_right _ waiting)

/-- After the pass no definition of a group and no node reached from the root has a reference to a
group among its children. -/
theorem ExpandsGroups.plain {root : NodeId} (expands : ExpandsGroups root before notes after) :
    Expanding before after ∧
      (∀ definition ∈ groupDefinitions before.elementGroups,
        before.Plain (after.children definition)) ∧
      ∀ id, after.arena.Reaches root id → before.Plain (after.children id) := by
  obtain ⟨between, early, late, -, each, below⟩ := expands
  obtain ⟨expanding, -, definitionsPlain⟩ := each.advances (.refl before)
  obtain ⟨advanced, settled, closing⟩ := below.advances expanding
  have initially : Frontier before [] [root] between :=
    ⟨fun _ seen => absurd seen List.not_mem_nil, fun _ seen => absurd seen List.not_mem_nil⟩
  obtain ⟨reached, closed, -, fromPending⟩ := closing initially
  refine ⟨advanced, fun definition member => ?_, fun id reaches => ?_⟩
  · have plain := definitionsPlain definition member
    rw [settled definition plain]
    exact plain
  · have inReached : (before.element? id).isSome = true → id ∈ reached := by
      induction reaches with
      | root => exact fromPending root (List.mem_singleton_self root)
      | @child parent child element reaches found member inductionHypothesis =>
          intro declared
          have parentDeclared : (before.element? parent).isSome = true := by
            have present : after.element? parent = some element := found
            rw [← advanced.declared, present]
            rfl
          have inside : child ∈ after.children parent :=
            (Context.children_of_element? found).symm ▸ member
          exact (closed.closed parent (inductionHypothesis parentDeclared) child inside
            declared).resolve_right List.not_mem_nil
    cases declared : (before.element? id).isSome with
    | true => exact closed.plain id (inReached declared)
    | false =>
        have absent : after.element? id = none := by
          rw [← advanced.declared] at declared
          simpa using declared
        rw [Context.children_of_undeclared absent]
        exact fun _ member => absurd member List.not_mem_nil

end XmlSchema
