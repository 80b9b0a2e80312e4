import XmlSchema.Proofs.Resolution

/-!
# What the resolution of attribute types finds

After `resolveAttributeTypes`, each attribute below the root has the type for which its declared
type stands, and the attributes are otherwise those from before:
`resolved_of_resolveAttributeTypes`. Each attribute is written once, since the keys of a table are
distinct and a walk visits no declaration twice.
-/

namespace XmlSchema

variable {context next : Context}

/-! ## The attributes of one declaration -/

/-- An attribute before and after its type has been resolved, where the tables are those of a
context. -/
def AttributeResolved (context : Context) (before after : Attribute) : Prop :=
  ∃ type place current, Frame .any context current ∧
    current.resolveAttributeType place before.dataType = .ok type ∧
    after = before.resolved context.vocabulary type

namespace AttributeResolved

variable {before after : Attribute} (resolved : AttributeResolved context before after)

include resolved in
theorem isBuiltin_or_isStray (known : context.SimpleTypesKnown) :
    ∃ type, after.resolvedType? = some type ∧
      (context.vocabulary.isBuiltin type = true ∨ context.IsStray type) := by
  obtain ⟨type, place, current, frame, resolvedType, rfl⟩ := resolved
  have target : type.name = context.attributeTarget before.dataType :=
    (attributeTarget_of_resolveAttributeType resolvedType).trans (frame.attributeTarget _)
  refine ⟨_, rfl, ?_⟩
  split
  · exact .inl (Vocabulary.isBuiltin_stringType _)
  · rw [target]
    exact isBuiltin_or_isStray_attributeTarget known before.dataType

include resolved in
/-- Under the strict policy no attribute is left of which the policy would have to decide. -/
theorem attributeFallsBack_eq_false (strict : context.options.fallback = .strict) :
    context.attributeFallsBack after.dataType = false := by
  obtain ⟨type, place, current, frame, resolvedType, rfl⟩ := resolved
  unfold Attribute.resolved
  dsimp only
  split
  · unfold Context.attributeFallsBack
    rw [if_pos (Vocabulary.isBuiltin_stringType _)]
  · rw [← frame.attributeFallsBack]
    cases falls : current.attributeFallsBack before.dataType with
    | false => rfl
    | true =>
        obtain ⟨problem, refused⟩ :=
          resolveAttributeType_strict (frame.options ▸ strict) falls
        rw [refused] at resolvedType
        cases resolvedType

end AttributeResolved

theorem resolveAttribute_run {id : NodeId} {owner : String} {entries : List (String × Attribute)}
    (distinct : (entries.map Prod.fst).Nodup) {element : Element}
    (found : context.element? id = some element)
    (completed : entries.foldlM (resolveAttribute id owner) context = .ok next) :
    ∃ after, next.element? id = some after ∧
      (∀ key, key ∉ entries.map Prod.fst →
        after.attributes.find? key = element.attributes.find? key) ∧
      ∀ key declared, (key, declared) ∈ entries →
        ∃ type place current, Frame .any context current ∧
          current.resolveAttributeType place declared.dataType = .ok type ∧
          after.attributes.find? key =
            (element.attributes.find? key).map (.resolved context.vocabulary type) := by
  induction entries generalizing context element with
  | nil =>
      cases foldlM_nil_eq_ok_iff.1 completed
      exact ⟨element, found, fun _ _ => rfl, fun _ _ member => by cases member⟩
  | cons entry rest inductionHypothesis =>
      obtain ⟨between, taken, later⟩ := foldlM_cons_eq_ok_iff.1 completed
      obtain ⟨fresh, distinctLater⟩ := List.nodup_cons.1 distinct
      unfold resolveAttribute at taken
      split at taken
      · cases taken
      · rename_i type resolved
        cases taken
        have written := element?_modifyElement_self found fun element =>
          { element with
            attributes := element.attributes.modify entry.1 (.resolved context.vocabulary type) }
        obtain ⟨after, present, untouched, resolvedLater⟩ :=
          inductionHypothesis distinctLater written later
        have read : ∀ key, (element.attributes.modify entry.1
              (.resolved context.vocabulary type)).find? key =
            if key = entry.1 then
              (element.attributes.find? key).map (.resolved context.vocabulary type)
            else element.attributes.find? key :=
          fun key => Table.find?_modify element.attributes entry.1 key _
        refine ⟨after, present, ?_, ?_⟩
        · intro key unlisted
          rw [List.map_cons, List.mem_cons, not_or] at unlisted
          rw [untouched key unlisted.2, read key, if_neg unlisted.1]
        · intro key declared member
          rcases List.mem_cons.1 member with rfl | memberLater
          · refine ⟨type, _, context, .refl .any context, resolved, ?_⟩
            rw [untouched key fresh, read key, if_pos rfl]
          · obtain ⟨laterType, place, current, frame, laterResolved, laterRead⟩ :=
              resolvedLater key declared memberLater
            have different : key ≠ entry.1 := by
              rintro rfl
              exact fresh (List.mem_map.2 ⟨_, memberLater, rfl⟩)
            have writing : Frame .any context (context.modifyElement id fun element =>
                { element with
                  attributes :=
                    element.attributes.modify entry.1 (.resolved context.vocabulary type) }) :=
              .modifyElement context id fun _ _ => trivial
            refine ⟨laterType, place, current, writing.trans frame, laterResolved, ?_⟩
            rw [laterRead, read key, if_neg different]
            rfl

/-- Every attribute of a declaration after the visit is one from before with its type resolved. -/
theorem resolved_of_resolveElementAttributes {id : NodeId} {element : Element}
    (found : context.element? id = some element)
    (completed : resolveElementAttributes context id = .ok next) :
    ∃ after, next.element? id = some after ∧
      ∀ key declaration, after.attributes.find? key = some declaration →
        ∃ declared, AttributeResolved context declared declaration := by
  unfold resolveElementAttributes at completed
  rw [found] at completed
  obtain ⟨after, present, untouched, resolved⟩ :=
    resolveAttribute_run element.attributes.nodup_keys found completed
  refine ⟨after, present, fun key declaration read => ?_⟩
  cases declaredFound : element.attributes.find? key with
  | none =>
      have unlisted : key ∉ element.attributes.keys := by
        rw [← Table.contains_iff_mem_keys]
        unfold Table.contains
        rw [declaredFound]
        decide
      rw [untouched key unlisted, declaredFound] at read
      cases read
  | some declared =>
      obtain ⟨type, place, current, frame, resolvedType, readResolved⟩ :=
        resolved key declared (Table.mem_entries_of_find? declaredFound)
      rw [readResolved, declaredFound] at read
      exact ⟨declared, type, place, current, frame, resolvedType, (Option.some.inj read).symm⟩

theorem resolveElementAttributes_elsewhere {id other : NodeId}
    (completed : resolveElementAttributes context id = .ok next) (different : other ≠ id) :
    next.element? other = context.element? other := by
  have untouched : ∀ (owner : String) (entries : List (String × Attribute)) (context : Context),
      entries.foldlM (resolveAttribute id owner) context = .ok next →
        next.element? other = context.element? other := by
    intro owner entries
    induction entries with
    | nil =>
        intro context completed
        rw [foldlM_nil_eq_ok_iff.1 completed]
    | cons entry rest inductionHypothesis =>
        intro context completed
        obtain ⟨between, taken, later⟩ := foldlM_cons_eq_ok_iff.1 completed
        unfold resolveAttribute at taken
        split at taken
        · cases taken
        · cases taken
          rw [inductionHypothesis _ later, element?_modifyElement_other different]
  unfold resolveElementAttributes at completed
  split at completed
  · exact untouched _ _ _ completed
  · cases completed
    rfl

/-! ## The whole pass -/

/-- Every attribute below the root after the pass is one from before with its type resolved. -/
theorem resolved_of_resolveAttributeTypes {root id : NodeId} {after : Element}
    (completed : resolveAttributeTypes root context = .ok next) (member : id ∈ context.walk root)
    (found : next.element? id = some after) {key : String} {declaration : Attribute}
    (read : after.attributes.find? key = some declaration) :
    ∃ declared, AttributeResolved context declared declaration := by
  have frame : ∀ current id,
      Frame .any current (endContext (resolveElementAttributes current id)) :=
    frame_resolveElementAttributes (by intros; trivial)
  obtain ⟨before, visitedContext, frameBefore, same, visited, final⟩ :=
    exists_visit_of_foldlM resolveElementAttributes_elsewhere frame
      (Arena.nodup_walk context.arena root) member completed
  have declared := (Arena.mem_walk_iff.1 member).2
  obtain ⟨element, present⟩ := Option.isSome_iff_exists.1 declared
  obtain ⟨visitedElement, visitedPresent, resolved⟩ :=
    resolved_of_resolveElementAttributes (same.trans present) visited
  cases (final.symm.trans found).symm.trans visitedPresent
  obtain ⟨declared, type, place, current, currentFrame, resolvedType, rfl⟩ :=
    resolved key declaration read
  refine ⟨declared, type, place, current, frameBefore.trans currentFrame, resolvedType, ?_⟩
  rw [frameBefore.vocabulary]

end XmlSchema
