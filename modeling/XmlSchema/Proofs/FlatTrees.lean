import XmlSchema.Proofs.Stages

/-!
# Trees without references to groups

Where no node refers to a group, the expansion of groups has nothing to do: `expandGroups_of_flat`.
So the compilation of such a document is that of its tree by the other passes alone, whose
computation the kernel can follow: `exists_of_compilesFlat`.
-/

namespace XmlSchema

/-- Whether no node refers to a group. -/
def Context.isFlat (context : Context) : Bool :=
  context.arena.handles.all fun id => (context.groupReference? id).isNone

section Flat

variable {context : Context} (flat : context.isFlat = true)

include flat in
theorem groupReference?_of_flat (id : NodeId) : context.groupReference? id = none := by
  cases found : context.element? id with
  | none =>
      unfold Context.groupReference?
      rw [found]
  | some element =>
      have handled := List.all_eq_true.1 flat id (Arena.mem_handles found)
      exact Option.isNone_iff_eq_none.1 handled

include flat in
theorem expandNode_of_flat (groups : Table ElementGroup) (path : List NodeId) (id : NodeId)
    (shallow : path.length ≤ context.options.limits.groupDepth) :
    expandNode groups path id context = .ok context := by
  have checked : context.options.limits.checkGroups path.length = .ok () :=
    if_neg (Nat.not_lt.2 shallow)
  rw [expandNode, checked]
  dsimp only
  split
  · rfl
  · rename_i element _
    have noReference : ¬ (element.children.any fun child =>
        (context.groupReference? child).isSome) = true := by
      simp [groupReference?_of_flat flat]
    rw [if_neg noReference]

end Flat

theorem expandBelow_of_flat {groups : Table ElementGroup} {visited pending : List NodeId}
    {context : Context} (flat : context.isFlat = true) :
    expandBelow groups visited pending context = .ok context := by
  have unchanged : ∀ id, expandNode groups [] id context = .ok context :=
    fun id => expandNode_of_flat flat groups [] id (Nat.zero_le _)
  induction visited, pending, context using expandBelow.induct groups with
  | case1 visited context => rw [expandBelow]
  | case2 visited id pending context seen inductionHypothesis =>
      rw [expandBelow_seen seen]
      exact inductionHypothesis flat unchanged
  | case3 visited id pending context new halt halted =>
      rw [unchanged id] at halted
      cases halted
  | case4 visited id pending context new next completed absent inductionHypothesis =>
      cases completed.symm.trans (unchanged id)
      rw [expandBelow_absent new completed absent]
      exact inductionHypothesis flat unchanged
  | case5 visited id pending context new next completed element found inductionHypothesis =>
      cases completed.symm.trans (unchanged id)
      rw [expandBelow_visit new completed found]
      exact inductionHypothesis flat unchanged

/-- Where no node refers to a group, nothing is expanded. -/
theorem expandGroups_of_flat {context : Context} (flat : context.isFlat = true)
    (nesting : 0 < context.options.limits.groupDepth) (root : NodeId) :
    expandGroups root context = .ok context := by
  have definitions : (groupDefinitions context.elementGroups).foldlM
      (fun current definition =>
        expandNode context.elementGroups [definition] definition current) context =
      .ok context := by
    induction groupDefinitions context.elementGroups with
    | nil => rfl
    | cons definition rest inductionHypothesis =>
        rw [List.foldlM_cons, expandNode_of_flat flat _ [definition] definition nesting]
        exact inductionHypothesis
  unfold expandGroups
  dsimp only
  rw [definitions]
  exact expandBelow_of_flat flat

/-! ## Computing a compilation -/

/-- The survey of a document without references to groups. -/
def surveyFlat? (options : Options) (document : Bytes) : Option (Context × NodeId) :=
  match options.limits.checkSize document.length with
  | .error _ => none
  | .ok () =>
      match readTree (.initial options) document with
      | .error _ => none
      | .ok (context, root) =>
          if context.isFlat && decide (0 < context.options.limits.groupDepth) then
            some (indexElements root context, root)
          else none

theorem survey_of_surveyFlat? {options : Options} {document : Bytes} {result : Context × NodeId}
    (computed : surveyFlat? options document = some result) :
    survey options document = .ok result := by
  unfold surveyFlat? at computed
  unfold survey
  cases sized : options.limits.checkSize document.length with
  | error fault =>
      rw [sized] at computed
      cases computed
  | ok =>
      rw [sized] at computed
      cases read : readTree (.initial options) document with
      | error halt =>
          rw [read] at computed
          cases computed
      | ok outcome =>
          rw [read] at computed
          obtain ⟨context, root⟩ := outcome
          dsimp only at computed ⊢
          split at computed
          · rename_i simple
            rw [Bool.and_eq_true] at simple
            obtain ⟨flat, nesting⟩ := simple
            cases computed
            rw [expandGroups_of_flat flat (of_decide_eq_true nesting) root]
          · cases computed

/-- Whether the survey of a document without references to groups passes a check. -/
def surveysFlat (options : Options) (document : Bytes) (check : Context → NodeId → Bool) : Bool :=
  (surveyFlat? options document).any fun (surveyed, root) => check surveyed root

theorem exists_of_surveysFlat {options : Options} {document : Bytes}
    {check : Context → NodeId → Bool} (surveys : surveysFlat options document check = true) :
    ∃ surveyed root, survey options document = .ok (surveyed, root) ∧
      check surveyed root = true := by
  obtain ⟨⟨surveyed, root⟩, computed, checked⟩ := (Option.any_eq_true _ _).1 surveys
  exact ⟨surveyed, root, survey_of_surveyFlat? computed, checked⟩

/-- Whether a document without references to groups compiles to a model that passes a check. -/
def compilesFlat (options : Options) (document : Bytes) (check : Model → Bool) : Bool :=
  surveysFlat options document fun surveyed root =>
    match Pass.afterSurvey.foldlM (fun context pass => pass.run root context) surveyed with
    | .error _ => false
    | .ok annotated => check ⟨annotated, root⟩

/-- What the computation finds is the model of the document. -/
theorem exists_of_compilesFlat {options : Options} {document : Bytes} {check : Model → Bool}
    (compiled : compilesFlat options document check = true) :
    ∃ model, compileBytes options document = .ok model ∧ check model = true := by
  obtain ⟨surveyed, root, found, annotated⟩ := exists_of_surveysFlat compiled
  rw [compileBytes_eq_survey, found]
  dsimp only
  cases completed :
      Pass.afterSurvey.foldlM (fun context pass => pass.run root context) surveyed with
  | error halt =>
      rw [completed] at annotated
      cases annotated
  | ok final =>
      rw [completed] at annotated
      exact ⟨⟨final, root⟩, rfl, annotated⟩

/-- Whether a document without references to groups is refused by a pass, for a certain cause. -/
def refusesFlat (options : Options) (document : Bytes) (cause : Error) : Bool :=
  surveysFlat options document fun surveyed root =>
    match Pass.afterSurvey.foldlM (fun context pass => pass.run root context) surveyed with
    | .error halt => decide (halt.cause = cause)
    | .ok _ => false

theorem compileBytes_of_refusesFlat {options : Options} {document : Bytes} {cause : Error}
    (refused : refusesFlat options document cause = true) :
    compileBytes options document = .error cause := by
  obtain ⟨surveyed, root, found, halted⟩ := exists_of_surveysFlat refused
  rw [compileBytes_eq_survey, found]
  dsimp only
  cases outcome :
      Pass.afterSurvey.foldlM (fun context pass => pass.run root context) surveyed with
  | error halt =>
      rw [outcome] at halted
      exact congrArg Except.error (of_decide_eq_true halted)
  | ok final =>
      rw [outcome] at halted
      cases halted

/-- A document with a qualifier for the schema language, its declarations given in pieces. -/
def schemaDocument (pieces : List String) : Bytes :=
  Text.Utf8.encode
    ("<s:schema xmlns:s='http://www.w3.org/2001/XMLSchema'>" ++ String.join pieces ++ "</s:schema>")

/-- Whether some declaration below the root passes a check. -/
def Model.anyElement (check : Model → Element → Bool) (model : Model) : Bool :=
  (model.context.walk model.root).any fun id => (model.context.element? id).any (check model)

theorem exists_of_anyElement {model : Model} {check : Model → Element → Bool}
    (passes : model.anyElement check = true) :
    ∃ id element, model.context.arena.Reaches model.root id ∧
      model.context.element? id = some element ∧ check model element = true := by
  obtain ⟨id, member, checked⟩ := List.any_eq_true.1 passes
  obtain ⟨element, found, holds⟩ := (Option.any_eq_true _ _).1 checked
  exact ⟨id, element, (Arena.mem_walk_iff.1 member).1, found, holds⟩

theorem exists_element_of_compilesFlat {options : Options} {document : Bytes}
    {check : Model → Element → Bool}
    (compiled : compilesFlat options document (Model.anyElement check) = true) :
    ∃ model id element, compileBytes options document = .ok model ∧
      model.context.arena.Reaches model.root id ∧ model.context.element? id = some element ∧
      check model element = true := by
  obtain ⟨model, compiles, found⟩ := exists_of_compilesFlat compiled
  obtain ⟨id, element, reached, present, holds⟩ := exists_of_anyElement found
  exact ⟨model, id, element, compiles, reached, present, holds⟩

end XmlSchema
