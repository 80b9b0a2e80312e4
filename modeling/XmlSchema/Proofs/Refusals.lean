import XmlSchema.Proofs.Outcome
import XmlSchema.Proofs.Stages

/-!
# Why resolution refuses

Where the survey goes through, nothing but the meaning of the declarations can end a compilation: no
pass after the survey fails other than with a semantic error, `isSemantic_of_afterSurvey`.
-/

namespace XmlSchema

/-- Whether an error is about the meaning of declarations. -/
def Error.IsSemantic (error : Error) : Prop := ∃ problem, error = .semantic problem

/-- Whether an error says that a chain of bases is too long. -/
def Error.IsInheritance (error : Error) : Prop :=
  ∃ node base limit, error = .semantic ⟨node, .cyclicInheritance base limit⟩

/-- Whether an error is about the type that a declaration or an attribute has. -/
def Error.IsUnresolved (error : Error) : Prop := error.IsSemantic ∧ ¬ error.IsInheritance

variable {context : Context} {failure : Error} {halt : Halt Error}

/-! ## Resolution of types -/

theorem isUnresolved_of_fallBack {node : String} {cause : SemanticCause}
    (failed : context.fallBack node cause = .error failure)
    (notInheritance : ∀ base limit, cause ≠ .cyclicInheritance base limit) :
    failure.IsUnresolved := by
  unfold Context.fallBack at failed
  split at failed
  · cases failed
  · cases failed
    refine ⟨⟨_, rfl⟩, ?_⟩
    rintro ⟨name, base, limit, same⟩
    cases same
    exact notInheritance base limit rfl

theorem isUnresolved_of_resolveSimple {node start : String}
    (failed : context.resolveSimple node start = .error failure) : failure.IsUnresolved := by
  have settling := map_eq_error_iff.1 failed
  unfold Context.settleChain at settling
  split at settling
  · cases settling
  · cases settling
  · exact isUnresolved_of_fallBack settling nofun
  · exact isUnresolved_of_fallBack settling nofun

theorem isUnresolved_of_resolveAlias {nominals : Nominals} {node name : String}
    (failed : context.resolveAlias nominals node name = .error failure) : failure.IsUnresolved := by
  unfold Context.resolveAlias at failed
  dsimp only at failed
  split at failed
  · exact isUnresolved_of_resolveSimple (map_eq_error_iff.1 failed)
  · cases failed
  · cases failed

theorem isUnresolved_of_resolve {nominals : Nominals} {node : String} {nominal : Nominal}
    (failed : context.resolve nominals node nominal = .error failure) : failure.IsUnresolved := by
  unfold Context.resolve at failed
  dsimp only at failed
  split at failed
  · exact isUnresolved_of_resolveAlias failed
  · split at failed
    · exact isUnresolved_of_resolveSimple (map_eq_error_iff.1 failed)
    · split at failed
      · cases failed
      · split at failed
        · cases failed
        · exact isUnresolved_of_fallBack (map_eq_error_iff.1 failed) nofun

theorem isUnresolved_of_resolveElement {nominals : Nominals} {id : NodeId}
    (failed : resolveElement nominals context id = .error halt) : halt.cause.IsUnresolved := by
  unfold resolveElement at failed
  split at failed
  · cases failed
  · split at failed
    · cases failed
    · split at failed
      · cases failed
      · dsimp only at failed
        split at failed
        · rename_i refused
          cases failed
          exact isUnresolved_of_resolve refused
        · cases failed

theorem isUnresolved_of_resolveAttributeType {place dataType : String}
    (failed : context.resolveAttributeType place dataType = .error failure) :
    failure.IsUnresolved := by
  unfold Context.resolveAttributeType at failed
  dsimp only at failed
  split at failed
  · cases failed
  · split at failed
    · exact isUnresolved_of_resolveSimple failed
    · exact isUnresolved_of_fallBack (map_eq_error_iff.1 failed) nofun

theorem isUnresolved_of_resolveAttribute {id : NodeId} {owner : String}
    {entry : String × Attribute}
    (failed : resolveAttribute id owner context entry = .error halt) : halt.cause.IsUnresolved := by
  unfold resolveAttribute at failed
  split at failed
  · rename_i refused
    cases failed
    exact isUnresolved_of_resolveAttributeType refused
  · cases failed

theorem isUnresolved_of_resolveElementAttributes {id : NodeId}
    (failed : resolveElementAttributes context id = .error halt) : halt.cause.IsUnresolved := by
  unfold resolveElementAttributes at failed
  split at failed
  · obtain ⟨entry, -, before, refused⟩ := exists_step_of_foldlM_eq_error failed
    exact isUnresolved_of_resolveAttribute refused
  · cases failed

theorem isUnresolved_of_resolveAttributeTypes {root : NodeId}
    (failed : resolveAttributeTypes root context = .error halt) : halt.cause.IsUnresolved := by
  obtain ⟨id, -, before, refused⟩ := exists_step_of_foldlM_eq_error failed
  exact isUnresolved_of_resolveElementAttributes refused

/-! ## Bounds and inheritance -/

theorem isSemantic_of_completeElement {id : NodeId}
    (failed : completeElement context id = .error halt) : halt.cause.IsSemantic := by
  unfold completeElement at failed
  split at failed
  · cases failed
  · dsimp only at failed
    split at failed
    · cases failed
      exact ⟨_, rfl⟩
    · cases failed

theorem isSemantic_of_ancestors {id : NodeId} (failed : context.ancestors id = .error failure) :
    failure.IsSemantic := by
  unfold Context.ancestors at failed
  dsimp only at failed
  split at failed
  · cases failed
  · cases failed
    exact ⟨_, rfl⟩

theorem isSemantic_of_separateElement {id : NodeId}
    (failed : separateElement context id = .error halt) : halt.cause.IsSemantic := by
  unfold separateElement at failed
  split at failed
  · rename_i refused
    cases failed
    exact isSemantic_of_ancestors refused
  · cases failed

theorem isSemantic_of_equalizeElement {state : Context × List (NodeId × List NodeId)} {id : NodeId}
    (failed : equalizeElement state id = .error halt) : halt.cause.IsSemantic := by
  unfold equalizeElement at failed
  dsimp only at failed
  split at failed
  · rename_i refused
    cases failed
    exact isSemantic_of_ancestors refused
  · cases failed

theorem isSemantic_of_checkMixedContent {root : NodeId}
    (failed : checkMixedContent root context = .error halt) : halt.cause.IsSemantic := by
  unfold checkMixedContent at failed
  split at failed
  · rename_i run
    cases failed
    obtain ⟨id, -, before, refused⟩ := exists_step_of_foldlM_eq_error run
    exact isSemantic_of_equalizeElement refused
  · cases failed

/-! ## All passes after the survey -/

theorem isSemantic_of_afterSurvey {root : NodeId}
    (failed : Pass.afterSurvey.foldlM (fun context pass => pass.run root context) context =
      .error halt) : halt.cause.IsSemantic := by
  obtain ⟨pass, member, before, refused⟩ := exists_step_of_foldlM_eq_error failed
  cases pass with
  | expandGroups => exact absurd member (by decide)
  | indexElements => cases refused
  | resolveTypes =>
      obtain ⟨id, -, current, step⟩ := exists_step_of_foldlM_eq_error refused
      exact (isUnresolved_of_resolveElement step).1
  | completeDeclarations =>
      obtain ⟨id, -, current, step⟩ := exists_step_of_foldlM_eq_error refused
      exact isSemantic_of_completeElement step
  | separateAttributes =>
      obtain ⟨id, -, current, step⟩ := exists_step_of_foldlM_eq_error refused
      exact isSemantic_of_separateElement step
  | resolveAttributeTypes => exact (isUnresolved_of_resolveAttributeTypes refused).1
  | checkMixedContent => exact isSemantic_of_checkMixedContent refused
  | markExtended => cases refused

/-- A document that goes through the survey compiles or has a semantic error. -/
theorem compiles_or_isSemantic {options : Options} {document : Bytes} {surveyed : Context}
    {root : NodeId} (found : survey options document = .ok (surveyed, root)) :
    (∃ model, compileBytes options document = .ok model) ∨
      ∃ problem, compileBytes options document = .error (.semantic problem) := by
  rw [compileBytes_eq_survey, found]
  dsimp only
  split
  · rename_i halt halted
    obtain ⟨problem, same⟩ := isSemantic_of_afterSurvey halted
    exact .inr ⟨problem, congrArg Except.error same⟩
  · exact .inl ⟨_, rfl⟩

end XmlSchema
