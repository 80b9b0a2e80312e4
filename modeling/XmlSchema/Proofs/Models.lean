import XmlSchema.Proofs.AttributeTypes
import XmlSchema.Proofs.Index
import XmlSchema.Proofs.Stages
import XmlSchema.Proofs.Tree.Expansion
import XmlSchema.Proofs.Tree.Reading

/-!
# What a model says in terms of the survey

The declarations below the root of a model are those of the survey. Their types say for what their
nominal types stood at the survey, `Stages.settled`, and their attributes are resolved with the
tables of the survey, `Stages.attributeResolved`. The survey itself is sound, `sound_survey`.
-/

namespace XmlSchema

variable {options : Options} {document : Bytes} {surveyed : Context} {root : NodeId}

/-! ## The survey -/

theorem sound_indexElements {context : Context} (sound : context.Sound) (root : NodeId) :
    (indexElements root context).Sound := by
  rw [indexElements_eq]
  exact ⟨sound.followsTag, sound.children, sound.simpleTypes⟩

/-- What the survey leaves is sound. -/
theorem sound_survey (found : survey options document = .ok (surveyed, root)) : surveyed.Sound := by
  obtain ⟨context, expanded, read, expandedGroups, rfl⟩ := exists_of_survey found
  exact sound_indexElements (sound_expandGroups (sound_readTree read) expandedGroups) root

theorem simpleTypesKnown_survey (found : survey options document = .ok (surveyed, root)) :
    surveyed.SimpleTypesKnown := by
  intro name contained
  obtain ⟨id, registered⟩ := Option.isSome_iff_exists.1 contained
  unfold Context.simpleType?
  rw [registered]
  exact (sound_survey found).simpleTypes registered

/-- Reading and surveying leave the options as they are. -/
theorem options_survey (found : survey options document = .ok (surveyed, root)) :
    surveyed.options = options := by
  obtain ⟨context, expanded, read, expandedGroups, rfl⟩ := exists_of_survey found
  have expansion : Frame .any context expanded :=
    (frame_expandGroups (by intros; trivial) root context).of_ok expandedGroups
  have reading : context.options = options := congrArg Prod.fst (unread_readTree read)
  rw [indexElements_eq]
  exact expansion.options.trans reading

theorem fallback_survey (found : survey options document = .ok (surveyed, root)) :
    surveyed.options.fallback = options.fallback :=
  congrArg Options.fallback (options_survey found)

/-- A model keeps the options under which it was compiled. -/
theorem options_of_compileBytes {model : Model}
    (compiled : compileBytes options document = .ok model) : model.context.options = options := by
  obtain ⟨surveyed, typed, completed, separated, attributed, mixed, found, stages⟩ :=
    exists_stages compiled
  exact stages.frame_shape.options.trans (options_survey found)

/-- A declaration stands in the index of a survey under a name: of the declarations that bear the
name, it is the one to which the walk comes first. -/
def Context.Enters (context : Context) (root : NodeId) (name : String) (id : NodeId) : Prop :=
  name ≠ "" ∧ context.FirstBearer (context.walk root) name id

/-- The survey makes its index from nothing. -/
theorem find?_survey_iff (found : survey options document = .ok (surveyed, root)) {name : String}
    {id : NodeId} :
    surveyed.elementIndex.find? name = some id ↔ surveyed.Enters root name id := by
  obtain ⟨context, expanded, read, expandedGroups, rfl⟩ := exists_of_survey found
  have expansion : Frame .any context expanded :=
    (frame_expandGroups (by intros; trivial) root context).of_ok expandedGroups
  have initially : context.elementIndex = .empty := congrArg (·.2.1) (unread_readTree read)
  have indexed : expanded.Indexed (expanded.walk root) (indexElements root expanded) :=
    (Context.Indexed.start (expansion.elementIndex.trans initially)).foldl (expanded.walk root)
  have sameWalk : (indexElements root expanded).walk root = expanded.walk root := by
    rw [indexed.rest]
    rfl
  unfold Context.Enters Context.FirstBearer
  simp only [sameWalk, indexed.bears_iff]
  exact indexed.entered name id

/-- What the survey enters into the index is a declaration below the root, under its own name. -/
theorem indexed_survey (found : survey options document = .ok (surveyed, root)) {name : String}
    {id : NodeId} (entered : surveyed.elementIndex.find? name = some id) :
    id ∈ surveyed.walk root ∧ name ≠ "" ∧ ∃ element, surveyed.element? id = some element ∧
      element.isReferable = true ∧ element.name = name := by
  obtain ⟨named, first⟩ := (find?_survey_iff found).1 entered
  exact ⟨first.mem, named, Context.bears_iff.1 first.bears⟩

/-! ## The declarations of a model -/

namespace Stages

variable {typed completed separated attributed mixed final : Context}
  (stages : Stages root surveyed typed completed separated attributed mixed final)
  {id : NodeId} {element : Element}

include stages in
theorem frame_separation : Frame (.keeping Element.children) surveyed separated := by
  have typing : Frame (.keeping Element.children) surveyed typed := stages.frame_types.view (·.2.2)
  have completion : Frame (.keeping Element.children) typed completed :=
    (frame_completeDeclarations (fun _ _ _ _ => rfl) root typed).of_ok stages.completion
  have separation : Frame (.keeping Element.children) completed separated :=
    (frame_separateAttributes (fun _ _ => rfl) root completed).of_ok stages.separation
  exact typing.trans (completion.trans separation)

include stages in
theorem walk_final : final.walk root = surveyed.walk root := by
  have frame : Frame (.keeping Element.children) surveyed final :=
    stages.frame_shape.view (·.2.2)
  exact Arena.walk_congr frame.map_element? root

include stages in
theorem walk_separated : separated.walk root = surveyed.walk root :=
  Arena.walk_congr stages.frame_separation.map_element? root

include stages in
theorem mem_walk_of_reaches (reached : final.arena.Reaches root id)
    (found : final.element? id = some element) : id ∈ surveyed.walk root := by
  have member : id ∈ final.walk root :=
    Arena.mem_walk_iff.2 ⟨reached, Option.isSome_iff_exists.2 ⟨element, found⟩⟩
  exact stages.walk_final ▸ member

include stages in
/-- A declaration of a model is one of the survey with its type settled, unless the resolution of
types passes over it. -/
theorem settled (reached : final.arena.Reaches root id)
    (found : final.element? id = some element) :
    ∃ before, surveyed.element? id = some before ∧ element.shape = before.shape ∧
      (element.attributes.isEmpty = true → before.attributes.isEmpty = true) ∧
      (before.isPassedOver = true → element.verdict = before.verdict) ∧
      (before.isPassedOver = false →
        Settled surveyed (.ofContext surveyed root) id before element) := by
  obtain ⟨before, present, sameShape⟩ := stages.frame_shape.of_element?_after found
  have growing := stages.frame_growing.holds present found
  obtain ⟨typedElement, typedPresent, passedOver, settled⟩ :=
    settled_of_resolveTypes stages.types (stages.mem_walk_of_reaches reached found) present
  have sameVerdict : element.verdict = typedElement.verdict :=
    stages.frame_verdict.holds typedPresent found
  have sameType : element.type? = typedElement.type? := congrArg Prod.fst sameVerdict
  have sameFlag : element.isComplex = typedElement.isComplex := congrArg Prod.snd sameVerdict
  have keptList : element.isList = typedElement.isList :=
    stages.frame_isList.holds typedPresent found
  refine ⟨before, present, sameShape, growing, fun skipped => ?_, fun typed => ⟨?_, ?_, ?_, ?_⟩⟩
  · rw [← passedOver skipped]
    exact sameVerdict
  · exact keptList.trans (settled typed).isList
  · exact sameFlag.trans (settled typed).isComplex
  · exact fun type stands => sameType.trans ((settled typed).simple type stands)
  · exact fun nominal hasNominal nothing =>
      sameType.trans ((settled typed).structured nominal hasNominal nothing)

include stages in
/-- What the resolution of types passes over is a list only if it was one at the survey. -/
theorem isList_passedOver (reached : final.arena.Reaches root id)
    (found : final.element? id = some element) {before : Element}
    (present : surveyed.element? id = some before) (passedOver : before.isPassedOver = true) :
    element.isList = before.isList := by
  obtain ⟨typedElement, typedPresent, unchanged, -⟩ :=
    settled_of_resolveTypes stages.types (stages.mem_walk_of_reaches reached found) present
  have sameList : element.isList = typedElement.isList :=
    stages.frame_isList.holds typedPresent found
  rw [unchanged passedOver] at sameList
  exact sameList

include stages in
/-- The attributes of a model are resolved with the tables of the survey. -/
theorem attributeResolved (reached : final.arena.Reaches root id)
    (found : final.element? id = some element) {key : String} {declaration : Attribute}
    (read : element.attributes.find? key = some declaration) :
    ∃ declared, AttributeResolved surveyed declared declaration := by
  have member : id ∈ separated.walk root :=
    stages.walk_separated.symm ▸ stages.mem_walk_of_reaches reached found
  obtain ⟨before, present, sameAttributes⟩ := stages.frame_attributes.of_element?_after found
  have kept : element.attributes = before.attributes := sameAttributes
  rw [kept] at read
  obtain ⟨declared, type, place, current, frame, resolved, rfl⟩ :=
    resolved_of_resolveAttributeTypes stages.attributeTypes member present read
  have earlier : Frame .any surveyed separated := stages.frame_separation.mono fun _ => trivial
  refine ⟨declared, type, place, current, earlier.trans frame, resolved, ?_⟩
  rw [earlier.vocabulary]

end Stages

/-! ## Nominal types -/

/-- The nominal type of a declaration below the root is that of the declaration itself. -/
theorem Nominals.find?_ofContext {id : NodeId} {element : Element} (member : id ∈ surveyed.walk root)
    (found : surveyed.element? id = some element) :
    (Nominals.ofContext surveyed root).find? id = element.nominal? := by
  unfold Nominals.find? Nominals.ofContext
  rw [if_pos member]
  exact congrArg (Option.bind · Element.nominal?) found

/-- A declaration that refers to an element and has no type is looked for under that element. -/
theorem nominal_of_reference {id : NodeId} {element : Element} {reference : String}
    (member : id ∈ surveyed.walk root) (found : surveyed.element? id = some element)
    (untyped : element.writtenType? = none) (refers : element.reference? = some reference) :
    (Nominals.ofContext surveyed root).find? id = some ⟨reference, .reference⟩ := by
  rw [Nominals.find?_ofContext member found]
  unfold Element.nominal?
  rw [untyped, refers]

/-- A declaration with a name has a nominal type. -/
theorem exists_nominal_of_name {id : NodeId} {element : Element} (member : id ∈ surveyed.walk root)
    (found : surveyed.element? id = some element) (named : element.name ≠ "") :
    ∃ nominal, (Nominals.ofContext surveyed root).find? id = some nominal := by
  rw [Nominals.find?_ofContext member found]
  unfold Element.nominal?
  split
  · exact ⟨_, rfl⟩
  · exact ⟨_, rfl⟩
  · rw [if_neg named]
    exact ⟨_, rfl⟩

/-- A declaration without a type or a reference is looked for under its name. -/
theorem declarationStandsFor?_of_name {id : NodeId} {element : Element}
    (member : id ∈ surveyed.walk root) (found : surveyed.element? id = some element)
    (untyped : element.writtenType? = none) (plain : element.reference? = none) :
    (Nominals.ofContext surveyed root).find? id =
        (if element.name = "" then none else some ⟨element.name, .name⟩) ∧
      surveyed.declarationStandsFor? (.ofContext surveyed root) id =
        if element.name = "" then some surveyed.vocabulary.stringType
        else surveyed.standsFor? (.ofContext surveyed root) element.name := by
  have nominal : (Nominals.ofContext surveyed root).find? id =
      if element.name = "" then none else some ⟨element.name, .name⟩ := by
    rw [Nominals.find?_ofContext member found]
    unfold Element.nominal?
    rw [untyped, plain]
  refine ⟨nominal, ?_⟩
  unfold Context.declarationStandsFor?
  rw [nominal]
  by_cases nameless : element.name = ""
  · rw [if_pos nameless, if_pos nameless]
  · rw [if_neg nameless, if_neg nameless]

/-- A declaration with a type is looked for under that type. -/
theorem nominal_of_writtenType {id : NodeId} {element : Element} {written : String}
    (sound : surveyed.Sound) (member : id ∈ surveyed.walk root)
    (found : surveyed.element? id = some element) (notAny : element.kind ≠ .any)
    (hasType : element.writtenType? = some written) :
    (Nominals.ofContext surveyed root).find? id =
      some ⟨surveyed.vocabulary.normalize written, .type⟩ := by
  have type := (sound.followsTag found).type notAny written hasType
  rw [Nominals.find?_ofContext member found]
  unfold Element.nominal?
  rw [hasType, type]

end XmlSchema
