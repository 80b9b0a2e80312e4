import XmlSchema.Proofs.Models

/-!
# What the completion of declarations leaves

After `completeDeclarations`, each declaration below the root has bounds in order, is optional where
its minimum says so, has the identifier that belongs to its name and a base without a namespace:
`completes_of_completeDeclarations`. No later pass writes any of this, so it holds of the
declarations of a model: `Stages.completes`.
-/

namespace XmlSchema

/-- A name in a table is built in or has no namespace. -/
theorem Vocabulary.isBuiltin_or_not_mem_tableName (vocabulary : Vocabulary) (reference : String) :
    vocabulary.isBuiltin (vocabulary.tableName reference) = true ∨
      ':' ∉ (vocabulary.tableName reference).toList := by
  unfold tableName
  split
  · rename_i builtin
    exact .inl builtin
  · exact .inr (Namespace.not_mem_localPart reference)

/-- Bounds that are read are in order. -/
theorem Occurrence.minimum_le_maximum {minimum? maximum? : Option String} {occurrence : Occurrence}
    (read : ofBounds minimum? maximum? = .ok occurrence) :
    occurrence.minimum ≤ occurrence.maximum := by
  unfold ofBounds at read
  split at read
  · cases read
  · split at read
    · cases read
    · split at read
      · cases read
      · rename_i inOrder
        cases read
        exact UInt32.not_lt.1 inOrder

/-- What the completion of a declaration makes of it under the options and the vocabulary of a
context. -/
structure Context.Completes (context : Context) (element : Element) : Prop where
  bounds : element.minOccurs ≤ element.maxOccurs
  isOptional : element.isOptional = true ↔ element.minOccurs = 0
  cleanName : element.cleanName = context.options.renames.apply (clean element.name)
  base : ∀ base, element.base? = some base →
    context.vocabulary.isBuiltin base = true ∨ ':' ∉ base.toList

/-- What decides whether a declaration is complete. -/
def Element.completion (element : Element) :
    (String × String × Option String) × UInt32 × UInt32 × Bool :=
  ((element.name, element.cleanName, element.base?),
    element.minOccurs, element.maxOccurs, element.isOptional)

theorem completion_addSimpleBase (element : Element) (name : String) :
    (element.addSimpleBase name).completion = element.completion :=
  part_addSimpleBase Element.completion (fun _ _ => rfl) element name

namespace Context

variable {context next : Context} {id : NodeId} {element before after : Element}

theorem Completes.of_completion (completes : context.Completes before)
    (options : next.options = context.options) (vocabulary : next.vocabulary = context.vocabulary)
    (same : after.completion = before.completion) : next.Completes after := by
  unfold Element.completion at same
  simp only [Prod.mk.injEq] at same
  obtain ⟨⟨name, cleanName, base⟩, minimum, maximum, isOptional⟩ := same
  refine ⟨?_, ?_, ?_, ?_⟩
  · rw [minimum, maximum]
    exact completes.bounds
  · rw [isOptional, minimum]
    exact completes.isOptional
  · rw [cleanName, name, options]
    exact completes.cleanName
  · rw [base, vocabulary]
    exact completes.base

theorem completes_completed (element : Element) (merged : Table Attribute)
    {occurrence : Occurrence} (inOrder : occurrence.minimum ≤ occurrence.maximum) :
    context.Completes (context.completed element merged occurrence) where
  bounds := inOrder
  isOptional := beq_iff_eq
  cleanName := rfl
  base base given := by
    obtain ⟨reference, -, rfl⟩ := Option.map_eq_some_iff.1 given
    exact context.vocabulary.isBuiltin_or_not_mem_tableName reference

/-! ## The pass -/

theorem element?_foldl_warn (warnings : List Warning) (context : Context) (id : NodeId) :
    (warnings.foldl warn context).element? id = context.element? id := by
  induction warnings generalizing context with
  | nil => rfl
  | cons warning rest inductionHypothesis => exact inductionHypothesis (context.warn warning)

theorem completeElement_elsewhere {other : NodeId}
    (completed : completeElement context id = .ok next) (different : other ≠ id) :
    next.element? other = context.element? other := by
  unfold completeElement at completed
  split at completed
  · cases completed
    rfl
  · dsimp only at completed
    split at completed
    · cases completed
    · cases completed
      rw [element?_modifyElement_other different, element?_foldl_warn]

theorem exists_completed_of_completeElement (found : context.element? id = some element)
    (completed : completeElement context id = .ok next) :
    ∃ occurrence, element.occurrence = .ok occurrence ∧ next.element? id =
      some (context.completed element (context.mergedAttributes element).attributes occurrence) := by
  unfold completeElement at completed
  rw [found] at completed
  dsimp only at completed
  split at completed
  · cases completed
  · rename_i occurrence read
    cases completed
    have warned := (element?_foldl_warn (context.mergedAttributes element).warnings context id).trans
      found
    exact ⟨occurrence, read, element?_modifyElement_self warned _⟩

/-- The pass completes every declaration below the root, by what the tables say before it. -/
theorem exists_completed_of_completeDeclarations {root : NodeId}
    (completed : completeDeclarations root context = .ok next) (member : id ∈ context.walk root)
    (found : context.element? id = some element) :
    ∃ current occurrence, Frame .any context current ∧ element.occurrence = .ok occurrence ∧
      next.element? id = some
        (current.completed element (current.mergedAttributes element).attributes occurrence) := by
  have frame : ∀ current id, Frame .any current (endContext (completeElement current id)) :=
    frame_completeElement (by intros; trivial)
  obtain ⟨current, afterVisit, earlier, same, visited, final⟩ :=
    exists_visit_of_foldlM completeElement_elsewhere frame (Arena.nodup_walk context.arena root)
      member completed
  obtain ⟨occurrence, read, present⟩ :=
    exists_completed_of_completeElement (same.trans found) visited
  exact ⟨current, occurrence, earlier, read, final.trans present⟩

/-- Every declaration below the root is complete after the pass. -/
theorem completes_of_completeDeclarations {root : NodeId}
    (completed : completeDeclarations root context = .ok next) (member : id ∈ context.walk root)
    (found : next.element? id = some after) : next.Completes after := by
  obtain ⟨element, present⟩ := Option.isSome_iff_exists.1 (Arena.mem_walk_iff.1 member).2
  obtain ⟨current, occurrence, earlier, read, last⟩ :=
    exists_completed_of_completeDeclarations completed member present
  cases found.symm.trans last
  have complete := current.completes_completed element
    (current.mergedAttributes element).attributes (Occurrence.minimum_le_maximum read)
  have whole : Frame .any context next :=
    (frame_completeDeclarations (by intros; trivial) root context).of_ok completed
  exact complete.of_completion (whole.options.trans earlier.options.symm)
    (whole.vocabulary.trans earlier.vocabulary.symm) rfl

end Context

/-! ## The passes after it -/

namespace Stages

variable {root id : NodeId} {element : Element}
  {surveyed typed completed separated attributed mixed final : Context}
  (stages : Stages root surveyed typed completed separated attributed mixed final)

include stages in
theorem frame_completion : Frame (.keeping Element.completion) completed final := by
  have separation : Frame (.keeping Element.completion) completed separated :=
    (frame_separateAttributes (fun _ _ => rfl) root completed).of_ok stages.separation
  have attributeTypes : Frame (.keeping Element.completion) separated attributed :=
    (frame_resolveAttributeTypes (fun _ _ _ _ => rfl) root separated).of_ok stages.attributeTypes
  have rest : Frame (.keeping Element.completion) attributed final :=
    stages.frame_afterAttributes (fun _ => rfl) completion_addSimpleBase (fun _ => rfl) fun _ => rfl
  exact separation.trans (attributeTypes.trans rest)

include stages in
/-- Every declaration below the root of a model is complete. -/
theorem completes (reached : final.arena.Reaches root id)
    (found : final.element? id = some element) : final.Completes element := by
  have member : id ∈ typed.walk root :=
    walk_resolution stages.types ▸ stages.mem_walk_of_reaches reached found
  obtain ⟨before, present, same⟩ := stages.frame_completion.of_element?_after found
  have complete := Context.completes_of_completeDeclarations stages.completion member present
  exact complete.of_completion stages.frame_completion.options stages.frame_completion.vocabulary
    same

end Stages

end XmlSchema
