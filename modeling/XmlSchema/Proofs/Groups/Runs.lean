import XmlSchema.Proofs.PassFrames
import XmlSchema.Proofs.Tree.Links

/-!
# Runs of the expansion of groups

An expansion that goes through is a derivation: `Expands` for the references among the children of
one node, `ExpandsEach` for the definitions of groups in a row, `ExpandsBelow` for the nodes below
the root and `ExpandsGroups` for the whole pass. A derivation keeps account of what a context does
not tell, the node that gave rise to each warning. What the pass returns is derived,
`exists_expandsGroups`, and the warnings of the derivation are those that the pass adds,
`ExpandsGroups.warnings`.
-/

namespace XmlSchema

/-- What is to be expanded: the children of a node, or the rest of them for a node of some name. -/
inductive GroupTask where
  | node (id : NodeId)
  | children (owner : String) (pending : List NodeId)

/-- A warning under the handle of the reference that gave rise to it. -/
abbrev GroupNote := NodeId × Warning

/-- The expansion of a task inside the definitions of a path, with its warnings in order and the
children that come out of it. -/
inductive Expands (groups : Table ElementGroup) :
    (path : List NodeId) → (task : GroupTask) → (before : Context) → (notes : List GroupNote) →
      (members : List NodeId) → (after : Context) → Prop where
  /-- Without references nothing is to be done. -/
  | flat {path : List NodeId} {id : NodeId} {context : Context}
      (plain : ∀ child ∈ context.children id, context.groupReference? child = none) :
      Expands groups path (.node id) context [] (context.children id) context
  | node {path : List NodeId} {id : NodeId} {context between : Context} {element : Element}
      {notes : List GroupNote} {members : List NodeId}
      (found : context.element? id = some element)
      (refers : ∃ child ∈ element.children, context.groupReference? child ≠ none)
      (inside : Expands groups path (.children element.name element.children) context notes members
        between) :
      Expands groups path (.node id) context notes members
        (between.modifyElement id ({ · with children := members }))
  | done {path : List NodeId} {owner : String} {context : Context} :
      Expands groups path (.children owner []) context [] [] context
  | keep {path : List NodeId} {owner : String} {child : NodeId} {pending members : List NodeId}
      {context after : Context} {notes : List GroupNote}
      (plain : context.groupReference? child = none)
      (rest : Expands groups path (.children owner pending) context notes members after) :
      Expands groups path (.children owner (child :: pending)) context notes (child :: members)
        after
  | undefined {path : List NodeId} {owner reference : String} {child : NodeId}
      {pending members : List NodeId} {context after : Context} {notes : List GroupNote}
      (refers : context.groupReference? child = some reference)
      (absent : groupDefinition? groups reference = none)
      (rest : Expands groups path (.children owner pending)
        (context.warn (.undefinedGroup reference owner)) notes members after) :
      Expands groups path (.children owner (child :: pending)) context
        ((child, .undefinedGroup reference owner) :: notes) members after
  | circular {path : List NodeId} {owner reference : String} {child definition : NodeId}
      {pending members : List NodeId} {context after : Context} {notes : List GroupNote}
      (refers : context.groupReference? child = some reference)
      (defined : groupDefinition? groups reference = some definition)
      (inside : definition ∈ path)
      (rest : Expands groups path (.children owner pending)
        (context.warn (.circularGroup reference owner)) notes members after) :
      Expands groups path (.children owner (child :: pending)) context
        ((child, .circularGroup reference owner) :: notes) members after
  | nested {path : List NodeId} {owner reference : String} {child definition : NodeId}
      {pending members others : List NodeId} {context between after : Context}
      {early late : List GroupNote}
      (refers : context.groupReference? child = some reference)
      (defined : groupDefinition? groups reference = some definition)
      (new : definition ∉ path)
      (inner : Expands groups (definition :: path) (.node definition) context early members between)
      (rest : Expands groups path (.children owner pending) between late others after) :
      Expands groups path (.children owner (child :: pending)) context (early ++ late)
        (members ++ others) after

/-- The expansion of definitions in a row, each inside itself. -/
inductive ExpandsEach (groups : Table ElementGroup) :
    (definitions : List NodeId) → (before : Context) → (notes : List GroupNote) →
      (after : Context) → Prop where
  | done {context : Context} : ExpandsEach groups [] context [] context
  | next {definition : NodeId} {rest members : List NodeId} {before between after : Context}
      {early late : List GroupNote}
      (first : Expands groups [definition] (.node definition) before early members between)
      (others : ExpandsEach groups rest between late after) :
      ExpandsEach groups (definition :: rest) before (early ++ late) after

/-- The expansion of the pending nodes and all nodes below them, each once. -/
inductive ExpandsBelow (groups : Table ElementGroup) :
    (visited pending : List NodeId) → (before : Context) → (notes : List GroupNote) →
      (after : Context) → Prop where
  | done {visited : List NodeId} {context : Context} :
      ExpandsBelow groups visited [] context [] context
  | seen {visited pending : List NodeId} {id : NodeId} {before after : Context}
      {notes : List GroupNote} (seen : id ∈ visited)
      (rest : ExpandsBelow groups visited pending before notes after) :
      ExpandsBelow groups visited (id :: pending) before notes after
  | absent {visited pending members : List NodeId} {id : NodeId} {before next after : Context}
      {early late : List GroupNote} (new : id ∉ visited)
      (expanded : Expands groups [] (.node id) before early members next)
      (absent : next.element? id = none)
      (rest : ExpandsBelow groups visited pending next late after) :
      ExpandsBelow groups visited (id :: pending) before (early ++ late) after
  | visit {visited pending members : List NodeId} {id : NodeId} {element : Element}
      {before next after : Context} {early late : List GroupNote} (new : id ∉ visited)
      (expanded : Expands groups [] (.node id) before early members next)
      (found : next.element? id = some element)
      (rest : ExpandsBelow groups (id :: visited) (element.children.reverse ++ pending) next late
        after) :
      ExpandsBelow groups visited (id :: pending) before (early ++ late) after

/-- The whole pass: first the definitions and then the tree. -/
structure ExpandsGroups (root : NodeId) (before : Context) (notes : List GroupNote)
    (after : Context) : Prop where
  exists_between : ∃ between early late, notes = early ++ late ∧
    ExpandsEach before.elementGroups (groupDefinitions before.elementGroups) before early between ∧
    ExpandsBelow before.elementGroups [] [root] between late after

/-! ## What is returned is derived -/

section Derived

variable {groups : Table ElementGroup}

theorem children_setChildren (context : Context) (id other : NodeId) (members : List NodeId) :
    (context.modifyElement id ({ · with children := members })).children other =
      if other = id ∧ (context.element? id).isSome then members else context.children other := by
  have read := Arena.element?_modifyElement context.arena id other ({ · with children := members })
  have readAfter : (context.modifyElement id ({ · with children := members })).element? other =
      if other = id then (context.element? id).map ({ · with children := members })
      else context.element? other := read
  unfold Context.children
  rw [readAfter]
  by_cases same : other = id
  · subst same
    cases context.element? other <;> simp
  · simp [same]

mutual

theorem exists_expands_node {path : List NodeId} {id : NodeId} {context after : Context}
    (expanded : expandNode groups path id context = .ok after) :
    ∃ notes, Expands groups path (.node id) context notes (after.children id) after := by
  have plain_of_none : (∀ element, context.element? id = some element →
      (element.children.any fun child => (context.groupReference? child).isSome) = false) →
      Expands groups path (.node id) context [] (context.children id) context := by
    intro noReference
    refine .flat fun child member => ?_
    cases found : context.element? id with
    | none =>
        unfold Context.children at member
        rw [found] at member
        cases member
    | some element =>
        rw [Context.children_of_element? found] at member
        have none := List.any_eq_false.1 (noReference element found) child member
        simpa using none
  rw [expandNode] at expanded
  split at expanded
  · cases expanded
  · split at expanded
    · rename_i absent
      cases expanded
      refine ⟨[], plain_of_none fun element found => ?_⟩
      rw [absent] at found
      cases found
    · rename_i element found
      split at expanded
      · rename_i refers
        split at expanded
        · cases expanded
        · rename_i members between childrenExpanded
          cases expanded
          obtain ⟨notes, inside⟩ := exists_expands_children childrenExpanded
          have kept : (between.element? id).isSome = true := by
            have frame : Frame .any context _ :=
              frame_expandChildren (fun _ _ => trivial) groups path element.name element.children
                context
            rw [childrenExpanded] at frame
            obtain ⟨changed, present, -⟩ := frame.of_element? found
            have presentAfter : between.element? id = some changed := present
            rw [presentAfter]
            rfl
          rw [children_setChildren, if_pos ⟨rfl, kept⟩]
          obtain ⟨child, member, isReference⟩ := List.any_eq_true.1 refers
          exact ⟨notes, .node found ⟨child, member, Option.isSome_iff_ne_none.1 isReference⟩ inside⟩
      · rename_i noReference
        cases expanded
        refine ⟨[], plain_of_none fun other otherFound => ?_⟩
        cases found.symm.trans otherFound
        simpa using noReference
termination_by (unvisited (groupDefinitions groups) path, 1, 0)

theorem exists_expands_children {path : List NodeId} {owner : String}
    {children members : List NodeId} {context after : Context}
    (expanded : expandChildren groups path owner children context = .ok (members, after)) :
    ∃ notes, Expands groups path (.children owner children) context notes members after := by
  cases children with
  | nil =>
      rw [expandChildren] at expanded
      cases expanded
      exact ⟨[], .done⟩
  | cons child rest =>
      rw [expandChildren] at expanded
      split at expanded
      · rename_i plain
        split at expanded
        · cases expanded
        · rename_i laterExpanded
          cases expanded
          obtain ⟨notes, later⟩ := exists_expands_children laterExpanded
          exact ⟨notes, .keep plain later⟩
      · rename_i reference refers
        split at expanded
        · rename_i absent
          obtain ⟨notes, later⟩ := exists_expands_children expanded
          exact ⟨_, .undefined refers absent later⟩
        · rename_i definition defined
          split at expanded
          · rename_i inside
            obtain ⟨notes, later⟩ := exists_expands_children expanded
            exact ⟨_, .circular refers defined inside later⟩
          · rename_i new
            split at expanded
            · cases expanded
            · rename_i between nodeExpanded
              dsimp only at expanded
              split at expanded
              · cases expanded
              · rename_i laterExpanded
                cases expanded
                obtain ⟨early, inner⟩ := exists_expands_node nodeExpanded
                obtain ⟨late, later⟩ := exists_expands_children laterExpanded
                exact ⟨_, .nested refers defined new inner later⟩
termination_by (unvisited (groupDefinitions groups) path, 0, children.length)
decreasing_by
  all_goals first
    | exact Prod.Lex.right _ (Prod.Lex.right _ (by subst_vars; simp))
    | exact Prod.Lex.left _ _
        (unvisited_cons_lt (mem_groupDefinitions (by assumption)) (by assumption))

end

theorem exists_expandsEach {definitions : List NodeId} {context after : Context}
    (expanded : definitions.foldlM
      (fun context definition => expandNode groups [definition] definition context) context =
        .ok after) :
    ∃ notes, ExpandsEach groups definitions context notes after := by
  induction definitions generalizing context with
  | nil =>
      cases foldlM_nil_eq_ok_iff.1 expanded
      exact ⟨[], .done⟩
  | cons definition rest inductionHypothesis =>
      obtain ⟨between, first, later⟩ := foldlM_cons_eq_ok_iff.1 expanded
      obtain ⟨early, first⟩ := exists_expands_node first
      obtain ⟨late, others⟩ := inductionHypothesis later
      exact ⟨early ++ late, .next first others⟩

theorem exists_expandsBelow {visited pending : List NodeId} {context after : Context}
    (expanded : expandBelow groups visited pending context = .ok after) :
    ∃ notes, ExpandsBelow groups visited pending context notes after := by
  induction visited, pending, context using expandBelow.induct groups with
  | case1 visited context =>
      rw [expandBelow] at expanded
      cases expanded
      exact ⟨[], .done⟩
  | case2 visited id pending context seen inductionHypothesis =>
      rw [expandBelow_seen seen] at expanded
      obtain ⟨notes, rest⟩ := inductionHypothesis expanded
      exact ⟨notes, .seen seen rest⟩
  | case3 visited id pending context new halt halted =>
      rw [expandBelow_halted new halted] at expanded
      cases expanded
  | case4 visited id pending context new next completed absent inductionHypothesis =>
      rw [expandBelow_absent new completed absent] at expanded
      obtain ⟨early, first⟩ := exists_expands_node completed
      obtain ⟨late, rest⟩ := inductionHypothesis expanded
      exact ⟨early ++ late, .absent new first absent rest⟩
  | case5 visited id pending context new next completed element found inductionHypothesis =>
      rw [expandBelow_visit new completed found] at expanded
      obtain ⟨early, first⟩ := exists_expands_node completed
      obtain ⟨late, rest⟩ := inductionHypothesis expanded
      exact ⟨early ++ late, .visit new first found rest⟩

/-- What the pass returns is derived. -/
theorem exists_expandsGroups {root : NodeId} {context after : Context}
    (expanded : expandGroups root context = .ok after) :
    ∃ notes, ExpandsGroups root context notes after := by
  unfold expandGroups at expanded
  dsimp only at expanded
  split at expanded
  · cases expanded
  · rename_i between definitions
    obtain ⟨early, each⟩ := exists_expandsEach definitions
    obtain ⟨late, below⟩ := exists_expandsBelow expanded
    exact ⟨early ++ late, ⟨between, early, late, rfl, each, below⟩⟩

end Derived

/-! ## Warnings -/

section Warnings

variable {groups : Table ElementGroup} {path visited pending members : List NodeId}
  {task : GroupTask} {before after : Context} {notes : List GroupNote}

theorem Expands.warnings (expands : Expands groups path task before notes members after) :
    after.warnings = before.warnings ++ notes.map Prod.snd := by
  induction expands with
  | flat _ => simp
  | node _ _ _ inductionHypothesis => exact inductionHypothesis
  | done => simp
  | keep _ _ inductionHypothesis => exact inductionHypothesis
  | undefined _ _ _ inductionHypothesis => simp [inductionHypothesis, Context.warn]
  | circular _ _ _ _ inductionHypothesis => simp [inductionHypothesis, Context.warn]
  | nested _ _ _ _ _ innerHypothesis restHypothesis => simp [restHypothesis, innerHypothesis]

theorem ExpandsEach.warnings {definitions : List NodeId}
    (expands : ExpandsEach groups definitions before notes after) :
    after.warnings = before.warnings ++ notes.map Prod.snd := by
  induction expands with
  | done => simp
  | next first _ inductionHypothesis => simp [inductionHypothesis, first.warnings]

theorem ExpandsBelow.warnings (expands : ExpandsBelow groups visited pending before notes after) :
    after.warnings = before.warnings ++ notes.map Prod.snd := by
  induction expands with
  | done => simp
  | seen _ _ inductionHypothesis => exact inductionHypothesis
  | absent _ first _ _ inductionHypothesis => simp [inductionHypothesis, first.warnings]
  | visit _ first _ _ inductionHypothesis => simp [inductionHypothesis, first.warnings]

/-- The pass adds the warnings of its notes, in order. -/
theorem ExpandsGroups.warnings {root : NodeId} (expands : ExpandsGroups root before notes after) :
    after.warnings = before.warnings ++ notes.map Prod.snd := by
  obtain ⟨between, early, late, rfl, each, below⟩ := expands
  rw [below.warnings, each.warnings, List.map_append, List.append_assoc]

end Warnings

end XmlSchema
