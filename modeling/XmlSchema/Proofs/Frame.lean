import XmlSchema.Annotation.Pass
import XmlSchema.Proofs.Outcome

/-!
# What the passes leave alone

A pass changes some parts of some declarations and leaves everything else as it was. A `Change` is a
kind of change to a declaration, and `Frame change before after` says that nothing but such changes
tell two contexts apart, as far as later passes look: the same options, vocabulary and tables of
definitions, the same simple types, and under each handle the same declaration up to the change.

Each pass has one theorem here. It asks that what the pass writes is a change of the given kind, and
it holds whether or not the pass halts.
-/

namespace XmlSchema

/-- A kind of change to declarations. To change nothing is a change of every kind, and so are two
changes of a kind in a row. -/
structure Change where
  holds : Element → Element → Prop
  refl : ∀ element, holds element element
  trans : ∀ {first second third}, holds first second → holds second third → holds first third

namespace Change

/-- Every change. -/
def any : Change where
  holds _ _ := True
  refl _ := trivial
  trans _ _ := trivial

/-- The changes that leave a part of a declaration as it was. -/
def keeping {α : Type} (part : Element → α) : Change where
  holds before after := part after = part before
  refl _ := rfl
  trans left right := right.trans left

end Change

/-- To record a simple type behind a declaration leaves alone what does not look at those. -/
theorem part_addSimpleBase {α : Type} (part : Element → α)
    (apart : ∀ element simpleBases, part { element with simpleBases } = part element)
    (element : Element) (name : String) : part (element.addSimpleBase name) = part element := by
  unfold Element.addSimpleBase
  split
  · rfl
  · exact apart element _

/-- Two contexts that differ by changes of a kind to their declarations, and in nothing else to
which a later pass looks. -/
structure Frame (change : Change) (before after : Context) : Prop where
  options : after.options = before.options
  vocabulary : after.vocabulary = before.vocabulary
  elementIndex : after.elementIndex = before.elementIndex
  simpleTypes : after.simpleTypes = before.simpleTypes
  elementGroups : after.elementGroups = before.elementGroups
  attributeGroups : after.attributeGroups = before.attributeGroups
  globalAttributes : after.globalAttributes = before.globalAttributes
  simpleType? : ∀ id, after.arena.simpleType? id = before.arena.simpleType? id
  element? : ∀ id, Option.Rel change.holds (before.element? id) (after.element? id)

/-- Where a handle has the same part on both sides, it has a declaration with that property on both
sides or on neither. -/
theorem exists_part_iff {before after : Context} {id : NodeId} {part : Element → Bool}
    (same : (after.element? id).map part = (before.element? id).map part) :
    (∃ element, after.element? id = some element ∧ part element = true) ↔
      ∃ element, before.element? id = some element ∧ part element = true := by
  rw [← Option.map_eq_some_iff, same, Option.map_eq_some_iff]

namespace Frame

variable {change : Change} {first second third : Context}

theorem refl (change : Change) (context : Context) : Frame change context context where
  options := rfl
  vocabulary := rfl
  elementIndex := rfl
  simpleTypes := rfl
  elementGroups := rfl
  attributeGroups := rfl
  globalAttributes := rfl
  simpleType? _ := rfl
  element? id := by
    cases context.element? id with
    | none => exact .none
    | some element => exact .some (change.refl element)

/-- Changes in a row, also where there is no declaration. -/
private theorem related_trans : ∀ {before between after : Option Element},
    Option.Rel change.holds before between → Option.Rel change.holds between after →
      Option.Rel change.holds before after
  | _, _, _, .none, .none => .none
  | _, _, _, .some left, .some right => .some (change.trans left right)

theorem trans (left : Frame change first second) (right : Frame change second third) :
    Frame change first third where
  options := right.options.trans left.options
  vocabulary := right.vocabulary.trans left.vocabulary
  elementIndex := right.elementIndex.trans left.elementIndex
  simpleTypes := right.simpleTypes.trans left.simpleTypes
  elementGroups := right.elementGroups.trans left.elementGroups
  attributeGroups := right.attributeGroups.trans left.attributeGroups
  globalAttributes := right.globalAttributes.trans left.globalAttributes
  simpleType? id := (right.simpleType? id).trans (left.simpleType? id)
  element? id := related_trans (left.element? id) (right.element? id)

/-- The frame of a step that goes through. -/
theorem of_ok {ε : Type} {outcome : Except (Halt ε) Context}
    (frame : Frame change first (endContext outcome)) (completed : outcome = .ok second) :
    Frame change first second := by
  rw [completed] at frame
  exact frame

/-- Changes of one kind may all be of another. -/
theorem mono {other : Change} (frame : Frame change first second)
    (implies : ∀ {before after}, change.holds before after → other.holds before after) :
    Frame other first second where
  options := frame.options
  vocabulary := frame.vocabulary
  elementIndex := frame.elementIndex
  simpleTypes := frame.simpleTypes
  elementGroups := frame.elementGroups
  attributeGroups := frame.attributeGroups
  globalAttributes := frame.globalAttributes
  simpleType? := frame.simpleType?
  element? id := by
    have related := frame.element? id
    revert related
    cases first.element? id <;> cases second.element? id
    all_goals intro related
    all_goals cases related
    · exact .none
    · rename_i holds
      exact .some (implies holds)

/-- What leaves a part as it was leaves alone all that is a part of that. -/
theorem view {α β : Type} {part : Element → α} (frame : Frame (.keeping part) first second)
    (view : α → β) : Frame (.keeping fun element => view (part element)) first second :=
  frame.mono fun same => congrArg view same

/-- What a declaration became. -/
theorem of_element? (frame : Frame change first second) {id : NodeId} {element : Element}
    (found : first.element? id = some element) :
    ∃ changed, second.element? id = some changed ∧ change.holds element changed := by
  have related := frame.element? id
  rw [found] at related
  cases related' : second.element? id with
  | none => rw [related'] at related; cases related
  | some changed =>
      rw [related'] at related
      cases related with
      | some holds => exact ⟨changed, rfl, holds⟩

/-- What a declaration was. -/
theorem of_element?_after (frame : Frame change first second) {id : NodeId} {changed : Element}
    (found : second.element? id = some changed) :
    ∃ element, first.element? id = some element ∧ change.holds element changed := by
  have related := frame.element? id
  rw [found] at related
  cases related' : first.element? id with
  | none => rw [related'] at related; cases related
  | some element =>
      rw [related'] at related
      cases related with
      | some holds => exact ⟨element, rfl, holds⟩

/-- The change between what a declaration was and what it became. -/
theorem holds (frame : Frame change first second) {id : NodeId} {element changed : Element}
    (found : first.element? id = some element) (after : second.element? id = some changed) :
    change.holds element changed := by
  obtain ⟨other, present, held⟩ := frame.of_element? found
  cases after.symm.trans present
  exact held

/-- The same handles are those of declarations. -/
theorem isSome_element? (frame : Frame change first second) (id : NodeId) :
    (second.element? id).isSome = (first.element? id).isSome := by
  have related := frame.element? id
  revert related
  cases first.element? id <;> cases second.element? id
  all_goals intro related
  all_goals cases related
  all_goals rfl

/-- A part that is left as it was is the same on both sides, also where there is no declaration. -/
theorem map_element? {α : Type} {part : Element → α} (frame : Frame (.keeping part) first second)
    (id : NodeId) : (second.element? id).map part = (first.element? id).map part := by
  have related := frame.element? id
  revert related
  cases first.element? id <;> cases second.element? id
  all_goals intro related
  all_goals cases related
  · rfl
  · rename_i same
    exact congrArg some same

theorem exists_iff {part : Element → Bool} (frame : Frame (.keeping part) first second)
    (id : NodeId) :
    (∃ element, second.element? id = some element ∧ part element = true) ↔
      ∃ element, first.element? id = some element ∧ part element = true :=
  exists_part_iff (frame.map_element? id)

/-- A change to one declaration. -/
theorem modifyElement (context : Context) (id : NodeId) {write : Element → Element}
    (writes : ∀ element, context.element? id = some element →
      change.holds element (write element)) :
    Frame change context (context.modifyElement id write) where
  options := rfl
  vocabulary := rfl
  elementIndex := rfl
  simpleTypes := rfl
  elementGroups := rfl
  attributeGroups := rfl
  globalAttributes := rfl
  simpleType? other := by
    show (context.arena.modifyElement id write).simpleType? other = _
    unfold Arena.modifyElement Arena.simpleType?
    rw [Arena.node?_modify]
    by_cases same : other = id
    · rw [if_pos same, same]
      cases context.arena.node? id with
      | none => rfl
      | some node => cases node <;> rfl
    · rw [if_neg same]
  element? other := by
    show Option.Rel _ _ ((context.arena.modifyElement id write).element? other)
    rw [Arena.element?_modifyElement]
    by_cases same : other = id
    · subst same
      rw [if_pos rfl]
      cases found : context.element? other with
      | none =>
          have absent : context.arena.element? other = none := found
          rw [absent]
          exact .none
      | some element =>
          have present : context.arena.element? other = some element := found
          rw [present]
          exact .some (writes element found)
    · rw [if_neg same]
      exact (refl change context).element? other

/-- A context with other warnings. -/
theorem warnings (change : Change) (context : Context) (warnings : List Warning) :
    Frame change context { context with warnings } :=
  { refl change context with }

/-- Steps that make changes of a kind and cannot halt. -/
theorem foldl {α : Type} {step : Context → α → Context}
    (frame : ∀ context item, Frame change context (step context item)) (items : List α)
    (context : Context) : Frame change context (items.foldl step context) := by
  induction items generalizing context with
  | nil => exact refl change context
  | cons item rest inductionHypothesis =>
      exact (frame context item).trans (inductionHypothesis (step context item))

theorem foldl_warn (change : Change) (context : Context) (warnings : List Warning) :
    Frame change context (warnings.foldl Context.warn context) :=
  foldl (fun context _ => .warnings change context _) warnings context

/-- A run whose steps make changes of a kind makes changes of that kind. -/
theorem foldlM {α : Type} {step : Context → α → Except (Halt Error) Context}
    (frame : ∀ context item, Frame change context (endContext (step context item)))
    (items : List α) (context : Context) :
    Frame change context (endContext (items.foldlM step context)) :=
  endContext_foldlM (refl change) trans frame items context

end Frame

/-! ## Runs that write each declaration once -/

section Visits

variable {ε : Type} {step : Context → NodeId → Except (Halt ε) Context}
  (elsewhere : ∀ {context next id other}, step context id = .ok next → other ≠ id →
    next.element? other = context.element? other)

include elsewhere in
/-- A run leaves alone what it does not visit. -/
theorem element?_of_foldlM {visits : List NodeId} {id : NodeId} (unvisited : id ∉ visits)
    {context result : Context} (completed : visits.foldlM step context = .ok result) :
    result.element? id = context.element? id := by
  induction visits generalizing context with
  | nil => rw [foldlM_nil_eq_ok_iff.1 completed]
  | cons visit rest inductionHypothesis =>
      obtain ⟨next, taken, later⟩ := foldlM_cons_eq_ok_iff.1 completed
      rw [List.mem_cons, not_or] at unvisited
      exact (inductionHypothesis unvisited.2 later).trans (elsewhere taken unvisited.1)

include elsewhere in
/-- Where a run visits each declaration once, the visit finds the declaration as it was in the
beginning, with what every step before keeps, and leaves it as it is in the end. -/
theorem exists_held_visit_of_foldlM {Holds : Context → Prop}
    (kept : ∀ {context id next}, Holds context → step context id = .ok next → Holds next)
    {visits : List NodeId} (once : visits.Nodup) {id : NodeId} (member : id ∈ visits)
    {context result : Context} (held : Holds context)
    (completed : visits.foldlM step context = .ok result) :
    ∃ before after, Holds before ∧ before.element? id = context.element? id ∧
      step before id = .ok after ∧ result.element? id = after.element? id := by
  induction visits generalizing context with
  | nil => cases member
  | cons visit rest inductionHypothesis =>
      obtain ⟨next, taken, later⟩ := foldlM_cons_eq_ok_iff.1 completed
      obtain ⟨fresh, onceLater⟩ := List.nodup_cons.1 once
      rcases List.mem_cons.1 member with rfl | memberLater
      · exact ⟨context, next, held, rfl, taken, element?_of_foldlM elsewhere fresh later⟩
      · obtain ⟨before, after, heldBefore, same, visited, final⟩ :=
          inductionHypothesis onceLater memberLater (kept held taken) later
        have different : id ≠ visit := fun equal => fresh (equal ▸ memberLater)
        exact ⟨before, after, heldBefore, same.trans (elsewhere taken different), visited, final⟩

include elsewhere in
/-- Steps that make changes of a kind have made such changes before a visit. -/
theorem exists_visit_of_foldlM {change : Change}
    (frame : ∀ context id, Frame change context (endContext (step context id)))
    {visits : List NodeId} (once : visits.Nodup) {id : NodeId} (member : id ∈ visits)
    {context result : Context} (completed : visits.foldlM step context = .ok result) :
    ∃ before after, Frame change context before ∧ before.element? id = context.element? id ∧
      step before id = .ok after ∧ result.element? id = after.element? id :=
  exists_held_visit_of_foldlM elsewhere
    (fun earlier taken => Frame.trans earlier ((frame _ _).of_ok taken)) once member
    (.refl change context) completed

end Visits

end XmlSchema
