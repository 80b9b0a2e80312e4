import XmlSchema.Annotation.Pass
import XmlSchema.Proofs.Outcome

/-!
# What the passes write

A pass changes a context in a few ways, each at many places. For every pass but the index, the
theorem `holds_` of it says that what these writes keep, the whole pass keeps, whether or not it
halts. So to know that a pass keeps something it is enough to look at its writes, and no proof has
to go through its steps again.
-/

namespace XmlSchema

/-! ## Expansion of groups -/

/-- One step along a list of children. -/
theorem expandChildren_step (groups : Table ElementGroup) (path : List NodeId) (owner : String)
    (child : NodeId) (rest : List NodeId) (context : Context) :
    expandChildren groups path owner (child :: rest) context =
      match context.groupReference? child with
      | none =>
          (expandChildren groups path owner rest context).map fun later =>
            (child :: later.1, later.2)
      | some reference =>
          match groupDefinition? groups reference with
          | none =>
              expandChildren groups path owner rest (context.warn (.undefinedGroup reference owner))
          | some definition =>
              if definition ∈ path then
                expandChildren groups path owner rest
                  (context.warn (.circularGroup reference owner))
              else
                match expandNode groups (definition :: path) definition context with
                | .error halt => .error halt
                | .ok expanded =>
                    (expandChildren groups path owner rest expanded).map fun later =>
                      (((expanded.element? definition).map Element.children).getD [] ++ later.1,
                        later.2) := by
  rw [expandChildren]
  cases context.groupReference? child with
  | none =>
      dsimp only
      cases expandChildren groups path owner rest context <;> rfl
  | some reference =>
      dsimp only
      split
      · rename_i undefined
        rw [undefined]
      · rename_i definition found
        rw [found]
        dsimp only
        split
        · rfl
        · cases expandNode groups (definition :: path) definition context with
          | error halt => rfl
          | ok expanded =>
              dsimp only
              cases expandChildren groups path owner rest expanded <;> rfl

/-- All children of all declarations are in a set. -/
def Context.ChildrenIn (context : Context) (inside : NodeId → Prop) : Prop :=
  ∀ id element, context.element? id = some element → ∀ child ∈ element.children, inside child

/-- What every write of the expansion keeps. The expansion moves children from one declaration to
others and makes none up, so where all children are in a set it writes none from outside. -/
structure KeptByExpansion (inside : NodeId → Prop) (Holds : Context → Prop) : Prop where
  contained : ∀ {context}, Holds context → context.ChildrenIn inside
  undefined : ∀ {context}, Holds context → ∀ reference owner,
    Holds (context.warn (.undefinedGroup reference owner))
  circular : ∀ {context}, Holds context → ∀ reference owner,
    Holds (context.warn (.circularGroup reference owner))
  writes : ∀ {context}, Holds context → ∀ id {members : List NodeId},
    (∀ member ∈ members, inside member) →
      Holds (context.modifyElement id ({ · with children := members }))

/-- An outcome of the expansion of children: it keeps what holds, and the children are in the set.
-/
structure ChildrenKept (inside : NodeId → Prop) (Holds : Context → Prop)
    (outcome : Except (Halt Error) (List NodeId × Context)) : Prop where
  held : Holds (endContext (outcome.map Prod.snd))
  members : ∀ {members after}, outcome = .ok (members, after) → ∀ member ∈ members, inside member

section Kept

variable {inside : NodeId → Prop} {Holds : Context → Prop}

/-- More children in front of those of an outcome. -/
theorem ChildrenKept.append {outcome : Except (Halt Error) (List NodeId × Context)}
    (later : ChildrenKept inside Holds outcome) {front : List NodeId}
    (frontInside : ∀ member ∈ front, inside member) :
    ChildrenKept inside Holds (outcome.map fun later => (front ++ later.1, later.2)) := by
  cases outcome with
  | error halt => exact ⟨later.held, nofun⟩
  | ok result =>
      refine ⟨later.held, fun same => ?_⟩
      cases same
      exact List.forall_mem_append.2 ⟨frontInside, later.members rfl⟩

mutual

theorem KeptByExpansion.expandNode (kept : KeptByExpansion inside Holds)
    (groups : Table ElementGroup) (path : List NodeId) (id : NodeId) {context : Context}
    (held : Holds context) : Holds (endContext (expandNode groups path id context)) := by
  rw [XmlSchema.expandNode]
  split
  · exact held
  · split
    · exact held
    · rename_i element found
      split
      · have inner := kept.expandChildren groups path element.name element.children held
          (kept.contained held id element found)
        split
        · rename_i halted
          have heldInside := inner.held
          rw [halted] at heldInside
          exact heldInside
        · rename_i members between completed
          have heldInside := inner.held
          rw [completed] at heldInside
          exact kept.writes heldInside id (inner.members completed)
      · exact held
termination_by (unvisited (groupDefinitions groups) path, 1, 0)

theorem KeptByExpansion.expandChildren (kept : KeptByExpansion inside Holds)
    (groups : Table ElementGroup) (path : List NodeId) (owner : String) (children : List NodeId)
    {context : Context} (held : Holds context) (childrenInside : ∀ child ∈ children, inside child) :
    ChildrenKept inside Holds (expandChildren groups path owner children context) := by
  cases children with
  | nil =>
      rw [XmlSchema.expandChildren]
      refine ⟨held, fun same => ?_⟩
      cases same
      exact fun _ member => absurd member List.not_mem_nil
  | cons child rest =>
      obtain ⟨childInside, restInside⟩ := List.forall_mem_cons.1 childrenInside
      rw [expandChildren_step]
      split
      · have later := kept.expandChildren groups path owner rest held restInside
        exact later.append (List.forall_mem_singleton.2 childInside)
      · split
        · exact kept.expandChildren groups path owner rest (kept.undefined held _ _) restInside
        · rename_i definition found
          split
          · exact kept.expandChildren groups path owner rest (kept.circular held _ _) restInside
          · rename_i fresh
            have inner := kept.expandNode groups (definition :: path) definition held
            split
            · rename_i halted
              rw [halted] at inner
              exact ⟨inner, nofun⟩
            · rename_i expanded completed
              rw [completed] at inner
              have later := kept.expandChildren groups path owner rest inner restInside
              refine later.append ?_
              cases group : expanded.element? definition with
              | none => exact fun _ member => absurd member List.not_mem_nil
              | some element => exact kept.contained inner definition element group
termination_by (unvisited (groupDefinitions groups) path, 0, children.length)
decreasing_by
  all_goals first
    | exact Prod.Lex.right _ (Prod.Lex.right _ (by subst_vars; simp))
    | exact Prod.Lex.left _ _
        (unvisited_cons_lt (mem_groupDefinitions (by assumption)) (by assumption))

end

end Kept

section Below

variable {groups : Table ElementGroup} {visited pending : List NodeId} {id : NodeId}
  {context next : Context}

theorem expandBelow_seen (seen : id ∈ visited) :
    expandBelow groups visited (id :: pending) context =
      expandBelow groups visited pending context := by
  rw [expandBelow, if_pos seen]

theorem expandBelow_halted {halt : Halt Error} (new : id ∉ visited)
    (halted : expandNode groups [] id context = .error halt) :
    expandBelow groups visited (id :: pending) context = .error halt := by
  rw [expandBelow, if_neg new]
  split
  · rename_i same
    exact halted.symm.trans same ▸ rfl
  · rename_i completed
    rw [halted] at completed
    cases completed

theorem expandBelow_absent (new : id ∉ visited)
    (completed : expandNode groups [] id context = .ok next) (absent : next.element? id = none) :
    expandBelow groups visited (id :: pending) context =
      expandBelow groups visited pending next := by
  rw [expandBelow, if_neg new]
  split
  · rename_i halted
    rw [completed] at halted
    cases halted
  · rename_i same
    cases completed.symm.trans same
    split
    · rfl
    · rename_i found
      rw [absent] at found
      cases found

theorem expandBelow_visit {element : Element} (new : id ∉ visited)
    (completed : expandNode groups [] id context = .ok next)
    (found : next.element? id = some element) :
    expandBelow groups visited (id :: pending) context =
      expandBelow groups (id :: visited) (element.children.reverse ++ pending) next := by
  rw [expandBelow, if_neg new]
  split
  · rename_i halted
    rw [completed] at halted
    cases halted
  · rename_i same
    cases completed.symm.trans same
    split
    · rename_i absent
      rw [found] at absent
      cases absent
    · rename_i otherFound
      cases found.symm.trans otherFound
      rfl

end Below

section Kept

variable {inside : NodeId → Prop} {Holds : Context → Prop}

theorem KeptByExpansion.expandBelow (kept : KeptByExpansion inside Holds)
    (groups : Table ElementGroup) (visited pending : List NodeId) {context : Context}
    (held : Holds context) : Holds (endContext (expandBelow groups visited pending context)) := by
  induction visited, pending, context using expandBelow.induct groups with
  | case1 visited context =>
      rw [XmlSchema.expandBelow]
      exact held
  | case2 visited id pending context seen inductionHypothesis =>
      rw [expandBelow_seen seen]
      exact inductionHypothesis held
  | case3 visited id pending context new halt halted =>
      have inner := kept.expandNode groups [] id held
      rw [halted] at inner
      rw [expandBelow_halted new halted]
      exact inner
  | case4 visited id pending context new next completed absent inductionHypothesis =>
      have inner := kept.expandNode groups [] id held
      rw [completed] at inner
      rw [expandBelow_absent new completed absent]
      exact inductionHypothesis inner
  | case5 visited id pending context new next completed element found inductionHypothesis =>
      have inner := kept.expandNode groups [] id held
      rw [completed] at inner
      rw [expandBelow_visit new completed found]
      exact inductionHypothesis inner

/-- What every write of the expansion keeps, the whole expansion keeps, whether or not it halts. -/
theorem KeptByExpansion.expandGroups (kept : KeptByExpansion inside Holds) (root : NodeId)
    {context : Context} (held : Holds context) :
    Holds (endContext (expandGroups root context)) := by
  have definitions := holds_foldlM
    (fun held definition => kept.expandNode context.elementGroups [definition] definition held)
    (groupDefinitions context.elementGroups) held
  unfold XmlSchema.expandGroups
  dsimp only
  split
  · rename_i halted
    rw [halted] at definitions
    exact definitions
  · rename_i flattened completed
    rw [completed] at definitions
    exact kept.expandBelow context.elementGroups [] [root] definitions

end Kept

section Passes

variable {Holds : Context → Prop}

/-! ## Types -/

section Types

variable
  (notes : ∀ {context}, Holds context → ∀ id nominal, Holds (context.noteSimpleType id nominal))
  (settles : ∀ {context}, Holds context → ∀ id resolution, Holds (context.settle id resolution))

include notes settles in
theorem holds_resolveElement (nominals : Nominals) {context : Context} (held : Holds context)
    (id : NodeId) : Holds (endContext (resolveElement nominals context id)) := by
  unfold resolveElement
  split
  · exact held
  · split
    · exact held
    · split
      · exact settles held id _
      · rename_i nominal _
        have noted := notes held id nominal
        dsimp only
        split
        · exact noted
        · exact settles noted id _

include notes settles in
theorem holds_resolveTypes (root : NodeId) {context : Context} (held : Holds context) :
    Holds (endContext (resolveTypes root context)) :=
  holds_foldlM (holds_resolveElement notes settles _) _ held

end Types

/-! ## Completion and distinct names -/

section Completion

variable
  (warns : ∀ {context}, Holds context → ∀ element,
    Holds ((context.mergedAttributes element).warnings.foldl Context.warn context))
  (completes : ∀ {context}, Holds context → ∀ id element occurrence,
    Holds (((context.mergedAttributes element).warnings.foldl Context.warn context).modifyElement
      id fun own =>
        context.completed own (context.mergedAttributes element).attributes occurrence))

include warns completes in
/-- A completion warns about the attribute groups of a declaration, and writes the declaration after
that with what was merged before. -/
theorem holds_completeElement {context : Context} (held : Holds context) (id : NodeId) :
    Holds (endContext (completeElement context id)) := by
  unfold completeElement
  split
  · exact held
  · rename_i element _
    dsimp only
    split
    · exact warns held element
    · exact completes held id element _

include warns completes in
theorem holds_completeDeclarations (root : NodeId) {context : Context} (held : Holds context) :
    Holds (endContext (completeDeclarations root context)) :=
  holds_foldlM (holds_completeElement warns completes) _ held

end Completion

section DistinctNames

variable
  (separates : ∀ {context}, Holds context → ∀ id identifiers,
    Holds (context.modifyElement id fun element =>
      { element with attributes := separateNames identifiers element.attributes }))

include separates in
theorem holds_separateElement {context : Context} (held : Holds context) (id : NodeId) :
    Holds (endContext (separateElement context id)) := by
  unfold separateElement
  split
  · exact held
  · exact separates held id _

include separates in
theorem holds_separateAttributes (root : NodeId) {context : Context} (held : Holds context) :
    Holds (endContext (separateAttributes root context)) :=
  holds_foldlM (holds_separateElement separates) _ held

end DistinctNames

/-! ## Types of attributes -/

section AttributeTypes

variable
  (resolves : ∀ {context}, Holds context → ∀ id key vocabulary type,
    Holds (context.modifyElement id fun element =>
      { element with attributes := element.attributes.modify key (.resolved vocabulary type) }))

include resolves in
theorem holds_resolveElementAttributes {context : Context} (held : Holds context) (id : NodeId) :
    Holds (endContext (resolveElementAttributes context id)) := by
  unfold resolveElementAttributes
  split
  · refine holds_foldlM (fun {context} held entry => ?_) _ held
    unfold resolveAttribute
    split
    · exact held
    · exact resolves held id entry.1 _ _
  · exact held

include resolves in
theorem holds_resolveAttributeTypes (root : NodeId) {context : Context} (held : Holds context) :
    Holds (endContext (resolveAttributeTypes root context)) :=
  holds_foldlM (holds_resolveElementAttributes resolves) _ held

end AttributeTypes

/-! ## Mixed content -/

section MixedContent

variable
  (mixes : ∀ {context}, Holds context → ∀ id,
    Holds (context.modifyElement id ({ · with isMixed := true })))
  (notes : ∀ {context}, Holds context → ∀ id,
    Holds (context.modifyElement id context.withSimpleBases))
  (flags : ∀ {context}, Holds context → ∀ link name parentName,
    Holds ((context.modifyElement link ({ · with mixedMismatch := true })).warn
      (.mixedContentMismatch name parentName)))

include mixes in
theorem holds_equalizeMixed {context : Context} (held : Holds context) (members : List NodeId) :
    Holds (context.equalizeMixed members) := by
  unfold Context.equalizeMixed
  split
  · exact List.foldlRecOn members _ held fun _ held member _ => mixes held member
  · exact held

include mixes notes in
theorem holds_equalizeElement {state : Context × List (NodeId × List NodeId)}
    (held : Holds state.1) (id : NodeId) :
    Holds (endContext ((equalizeElement state id).map Prod.fst)) := by
  unfold equalizeElement
  dsimp only
  split
  · exact held
  · exact notes (holds_equalizeMixed mixes held _) id

include flags in
theorem holds_flagMismatch {context : Context} (held : Holds context) (isMixed : Bool)
    (link : NodeId) (chain : List NodeId) : Holds (context.flagMismatch isMixed link chain) := by
  induction chain generalizing link with
  | nil => exact held
  | cons parent rest inductionHypothesis =>
      unfold Context.flagMismatch
      dsimp only
      split
      · exact inductionHypothesis parent
      · split
        · exact held
        · split
          · exact held
          · exact flags held link _ _

include flags in
theorem holds_checkMixed {context : Context} (held : Holds context) (id : NodeId)
    (chain : List NodeId) : Holds (context.checkMixed id chain) := by
  unfold Context.checkMixed
  split
  · exact holds_flagMismatch flags held _ id chain
  · exact held

include mixes notes flags in
theorem holds_checkMixedContent (root : NodeId) {context : Context} (held : Holds context) :
    Holds (endContext (checkMixedContent root context)) := by
  have equalized : Holds (endContext (((context.walk root).foldlM equalizeElement
      (context, [])).map Prod.fst)) :=
    holds_foldlM_fst (holds_equalizeElement mixes notes) _ held
  unfold checkMixedContent
  split
  · rename_i halted
    rw [halted] at equalized
    exact equalized
  · rename_i chains completed
    rw [completed] at equalized
    exact List.foldlRecOn chains.reverse _ equalized fun _ held entry _ =>
      holds_checkMixed flags held entry.1 entry.2

end MixedContent

/-! ## Inheritance -/

section Inheritance

variable
  (marks : ∀ {context}, Holds context → ∀ id,
    Holds (context.modifyElement id ({ · with isExtended := true })))

include marks in
theorem holds_markParent {context : Context} (held : Holds context) (id : NodeId) :
    Holds (context.markParent id) := by
  unfold Context.markParent
  split
  · exact marks held _
  · exact held

include marks in
theorem holds_markExtended (root : NodeId) {context : Context} (held : Holds context) :
    Holds (markExtended root context) :=
  List.foldlRecOn (context.walk root) _ held fun _ held id _ => holds_markParent marks held id

end Inheritance

end Passes

end XmlSchema
