import XmlSchema.Proofs.Policy.Passes
import XmlSchema.Proofs.Stages

/-!
# Compiling under relaxed options

The survey goes through under relaxed options if it does under the options before, and so does every
pass after it if the lenient policy stays lenient. So what compiles then compiles to the same model
but for the options that it keeps: `compileBytes_relax`.
-/

namespace XmlSchema

variable {options : Options} {document : Bytes} {relaxation : Relaxation}

/-- A document that is surveyed is surveyed under relaxed options, to the same tree and tables. -/
theorem survey_relax {surveyed : Context} {root : NodeId}
    (found : survey options document = .ok (surveyed, root)) :
    survey (relaxation.apply options) document = .ok (surveyed.relax relaxation, root) := by
  unfold survey at found ⊢
  split at found
  · cases found
  · rename_i sized
    split at found
    · cases found
    · rename_i context _ read
      split at found
      · cases found
      · rename_i expanded expansion
        cases found
        have begun : Context.initial (relaxation.apply options) =
          (Context.initial options).relax relaxation := rfl
        rw [(relaxation.within options).checkSize sized, begun, readTree_relax read]
        dsimp only
        rw [expandGroups_relax expansion]
        exact congrArg (fun context => Except.ok (context, root)) (indexElements_relax root)

section Types

variable (keeps : relaxation.KeepsLenient)

include keeps in
theorem passRun_relax {context next : Context} {root : NodeId} {pass : Pass}
    (taken : pass.run root context = .ok next) :
    pass.run root (context.relax relaxation) = .ok (next.relax relaxation) := by
  cases pass with
  | expandGroups => exact expandGroups_relax taken
  | indexElements =>
      cases taken
      exact congrArg Except.ok (indexElements_relax root)
  | resolveTypes => exact resolveTypes_relax keeps taken
  | completeDeclarations =>
      exact foldlM_image (Context.relax · relaxation) completeElement_relax taken
  | separateAttributes =>
      exact foldlM_image (Context.relax · relaxation) separateElement_relax taken
  | resolveAttributeTypes => exact resolveAttributeTypes_relax keeps taken
  | checkMixedContent => exact checkMixedContent_relax taken
  | markExtended =>
      cases taken
      exact congrArg Except.ok (markExtended_relax root)

include keeps in
/-- What compiles compiles under relaxed options, to the same model but for the options. -/
theorem compileBytes_relax {model : Model} (compiled : compileBytes options document = .ok model) :
    compileBytes (relaxation.apply options) document =
      .ok ⟨model.context.relax relaxation, model.root⟩ := by
  rw [compileBytes_eq_survey] at compiled ⊢
  cases found : survey options document with
  | error failure =>
      rw [found] at compiled
      cases compiled
  | ok outcome =>
      obtain ⟨surveyed, root⟩ := outcome
      rw [found] at compiled
      rw [survey_relax found]
      dsimp only at compiled ⊢
      cases completed :
          Pass.afterSurvey.foldlM (fun context pass => pass.run root context) surveyed with
      | error halt =>
          rw [completed] at compiled
          cases compiled
      | ok annotated =>
          rw [completed] at compiled
          cases compiled
          rw [foldlM_image (Context.relax · relaxation) (passRun_relax keeps) completed]

end Types

end XmlSchema
