import XmlSchema.Proofs.FlatTrees
import XmlSchema.Proofs.Models
import XmlSchema.Proofs.Policy.Refinement
import XmlSchema.Proofs.Refusals

/-!
# Types under the strict policy

Under the strict policy a simple type should be built in, and a name that leads to no built-in type
should be refused. All that falls back is refused, with a semantic error. But a chain of simple
types that leaves the table ends at the name where it does so, and nobody asks whether a type bears
that name. These stray names are the only types that are not built in.
-/

namespace XmlSchema

/-- A type is traced when it is given and it is built in unless it is stray. -/
def Context.Traces (context : Context) (type? : Option String) : Prop :=
  ∃ type, type? = some type ∧ (context.vocabulary.isBuiltin type = true ↔ ¬ context.IsStray type)

/-! ## What compiles is traced -/

theorem Frame.traces {change : Change} {before after : Context} (frame : Frame change before after)
    {type type? : Option String} (same : type? = type)
    (traces : before.Traces type) : after.Traces type? := by
  obtain ⟨name, given, iff⟩ := traces
  refine ⟨name, same.trans given, ?_⟩
  rw [frame.vocabulary, frame.isStray_iff]
  exact iff

section Models

variable {surveyed typed completed separated attributed mixed final : Context} {root id : NodeId}
  {element : Element}

/-- What stands inside a declaration of a sound context is no schema. -/
theorem kind_ne_schema_of_reaches (sound : surveyed.Sound)
    (stages : Stages root surveyed typed completed separated attributed mixed final)
    (reached : final.arena.Reaches root id) (inner : id ≠ root)
    (found : final.element? id = some element) : element.kind ≠ .schema := by
  rcases reached.eq_or_child with atRoot | ⟨parent, parentElement, -, parentFound, member⟩
  · exact absurd atRoot inner
  · obtain ⟨parentBefore, parentPresent, sameParent⟩ :=
      stages.frame_shape.of_element?_after parentFound
    have sameChildren : parentElement.children = parentBefore.children :=
      congrArg (fun shape : ElementKind × Option String × List NodeId => shape.2.2) sameParent
    rw [sameChildren] at member
    obtain ⟨before, present, notSchema⟩ := sound.children parentPresent id member
    have same : element.shape = before.shape := stages.frame_shape.holds present found
    have sameKind : element.kind = before.kind := congrArg Prod.fst same
    rw [sameKind]
    exact notSchema

theorem traces_of_declarationStandsFor? (known : surveyed.SimpleTypesKnown) {nominals : Nominals}
    {type : String} (stands : surveyed.declarationStandsFor? nominals id = some type) :
    surveyed.Traces (some type) := by
  refine ⟨type, rfl, isBuiltin_iff_not_isStray ?_⟩
  unfold Context.declarationStandsFor? at stands
  split at stands
  · cases stands
    exact .inl (Vocabulary.isBuiltin_stringType _)
  · exact isBuiltin_or_isStray_of_standsFor? known stands

end Models

/-- The type of a declaration that is not complex is traced. -/
theorem traces_type {options : Options} {document : Bytes} {model : Model}
    (compiled : compileBytes options document = .ok model) {id : NodeId} {element : Element}
    (reached : model.context.arena.Reaches model.root id) (inner : id ≠ model.root)
    (present : model.context.element? id = some element) (notWildcard : element.isWildcard = false)
    (simple : element.isComplex = false) : model.context.Traces element.type? := by
  obtain ⟨surveyed, typed, completed, separated, attributed, mixed, found, stages⟩ :=
    exists_stages compiled
  obtain ⟨before, -, shape, -, passedOver, settled⟩ := stages.settled reached present
  have notSchema := kind_ne_schema_of_reaches (sound_survey found) stages reached inner present
  have sameKind : element.kind = before.kind := congrArg Prod.fst shape
  cases skipped : before.isPassedOver with
  | true =>
      have unchanged := passedOver skipped
      have sameType : element.type? = before.type? := congrArg Prod.fst unchanged
      have sameWildcard : element.isWildcard = before.isWildcard := by
        unfold Element.isWildcard
        rw [sameType]
      rw [sameKind] at notSchema
      rw [sameWildcard, ← Element.isPassedOver_eq_isWildcard notSchema, skipped] at notWildcard
      cases notWildcard
  | false =>
      have flag := (settled skipped).isComplex
      rw [simple] at flag
      obtain ⟨-, stands⟩ := Bool.or_eq_false_iff.1 flag.symm
      obtain ⟨type, standsFor⟩ := Option.isSome_iff_exists.1 (Option.isNone_eq_false_iff.1 stands)
      exact stages.frame_shape.traces ((settled skipped).simple type standsFor)
        (traces_of_declarationStandsFor? (simpleTypesKnown_survey found) standsFor)

/-- The type of an attribute is traced. -/
theorem traces_resolvedType {options : Options} {document : Bytes} {model : Model}
    (compiled : compileBytes options document = .ok model) {id : NodeId} {element : Element}
    (reached : model.context.arena.Reaches model.root id)
    (present : model.context.element? id = some element) {key : String} {declaration : Attribute}
    (read : element.attributes.find? key = some declaration) :
    model.context.Traces declaration.resolvedType? := by
  obtain ⟨surveyed, typed, completed, separated, attributed, mixed, found, stages⟩ :=
    exists_stages compiled
  obtain ⟨declared, resolved⟩ := stages.attributeResolved reached present read
  obtain ⟨type, given, either⟩ := resolved.isBuiltin_or_isStray (simpleTypesKnown_survey found)
  exact stages.frame_shape.traces rfl ⟨type, given, isBuiltin_iff_not_isStray either⟩

/-! ## What falls back is refused -/

section Refusal

variable {limits : Limits} {renames : Renames} {document : Bytes}

theorem attributeFallsBack_withFallback (context : Context) (fallback : Fallback)
    (dataType : String) :
    (context.withFallback fallback).attributeFallsBack dataType =
      context.attributeFallsBack dataType := by
  rw [← Context.relax_policy]
  unfold Context.attributeFallsBack Context.simpleFallsBack
  rw [simpleChain_relax]
  rfl

/-- A nominal type that falls back is refused under the strict policy. -/
theorem refused_of_fallsBack {surveyed : Context} {root id : NodeId} {element : Element}
    {nominal : Nominal}
    (found : survey ⟨limits, .strict, renames⟩ document = .ok (surveyed, root))
    (member : id ∈ surveyed.walk root) (present : surveyed.element? id = some element)
    (typed : element.isPassedOver = false)
    (hasNominal : (Nominals.ofContext surveyed root).find? id = some nominal)
    (falls : surveyed.fallsBack (.ofContext surveyed root) nominal = true) :
    ∃ problem, compileBytes ⟨limits, .strict, renames⟩ document = .error (.semantic problem) := by
  rcases compiles_or_isSemantic found with ⟨model, compiled⟩ | refused
  · obtain ⟨again, _, _, _, _, _, foundAgain, stages⟩ := exists_stages compiled
    cases found.symm.trans foundAgain
    have kept := fallsBack_eq_false_of_resolveTypes (fallback_survey found) stages.types member
      present typed hasNominal
    rw [falls] at kept
    cases kept
  · exact refused

/-- An attribute whose type falls back under the lenient policy is refused under the strict one. -/
theorem refused_of_attributeFallsBack {model : Model}
    (lenient : compileBytes ⟨limits, .lenient, renames⟩ document = .ok model) {id : NodeId}
    {element : Element} (reached : model.context.arena.Reaches model.root id)
    (present : model.context.element? id = some element) {key : String} {declaration : Attribute}
    (read : element.attributes.find? key = some declaration)
    (falls : model.context.attributeFallsBack declaration.dataType = true) :
    ∃ problem, compileBytes ⟨limits, .strict, renames⟩ document = .error (.semantic problem) := by
  obtain ⟨surveyed, _, _, _, _, _, foundLenient, _⟩ := exists_stages lenient
  rcases compiles_or_isSemantic (survey_withFallback foundLenient) with ⟨strictModel, compiled⟩ |
    refused
  · cases lenient.symm.trans (compileBytes_lenient compiled)
    obtain ⟨strictSurveyed, _, _, _, _, _, found, stages⟩ := exists_stages compiled
    obtain ⟨declared, resolved⟩ := stages.attributeResolved reached present read
    have kept := resolved.attributeFallsBack_eq_false (fallback_survey found)
    rw [← stages.frame_shape.attributeFallsBack, ← attributeFallsBack_withFallback _ .lenient,
      falls] at kept
    cases kept
  · exact refused

end Refusal

/-! ## The strict policy -/

/-- In a model under the strict policy, the type of a declaration that is not complex and that of an
attribute are built in exactly when they are not stray. What falls back is refused with a semantic
error: the nominal type of a declaration of the survey, and the type of an attribute that the
lenient policy lets pass. -/
theorem strict_types_traced (limits : Limits) (renames : Renames) (document : Bytes) :
    (∀ model, compileBytes ⟨limits, .strict, renames⟩ document = .ok model →
      ∀ id element, model.context.arena.Reaches model.root id →
        model.context.element? id = some element →
        (id ≠ model.root → element.isWildcard = false → element.isComplex = false →
          model.context.Traces element.type?) ∧
        ∀ key declaration, element.attributes.find? key = some declaration →
          model.context.Traces declaration.resolvedType?) ∧
    (∀ surveyed root, survey ⟨limits, .strict, renames⟩ document = .ok (surveyed, root) →
      ∀ id element nominal, surveyed.arena.Reaches root id →
        surveyed.element? id = some element → element.isPassedOver = false →
        (Nominals.ofContext surveyed root).find? id = some nominal →
        surveyed.fallsBack (.ofContext surveyed root) nominal = true →
        ∃ problem, compileBytes ⟨limits, .strict, renames⟩ document = .error (.semantic problem)) ∧
    (∀ model, compileBytes ⟨limits, .lenient, renames⟩ document = .ok model →
      ∀ id element key declaration, model.context.arena.Reaches model.root id →
        model.context.element? id = some element →
        element.attributes.find? key = some declaration →
        model.context.attributeFallsBack declaration.dataType = true →
        ∃ problem,
          compileBytes ⟨limits, .strict, renames⟩ document = .error (.semantic problem)) := by
  refine ⟨?_, ?_, ?_⟩
  · intro model compiled id element reached present
    constructor
    · intro inner notWildcard simple
      exact traces_type compiled reached inner present notWildcard simple
    · intro key declaration read
      exact traces_resolvedType compiled reached present read
  · intro surveyed root found id element nominal reached present typed hasNominal falls
    have member : id ∈ surveyed.walk root :=
      Arena.mem_walk_iff.2 ⟨reached, Option.isSome_iff_exists.2 ⟨element, present⟩⟩
    exact refused_of_fallsBack found member present typed hasNominal falls
  · intro model lenient id element key declaration reached present read falls
    exact refused_of_attributeFallsBack lenient reached present read falls

/-- An element of a simple type whose base nobody declares. -/
def strayBaseSchema : Bytes :=
  schemaDocument [
    "<s:simpleType name='T'><s:restriction base='Nowhere'/></s:simpleType>",
    "<s:element name='e' type='T'/>"]

/-- A restriction of an unknown type gives its base to an element, and the strict policy lets it. -/
theorem strict_type_not_builtin :
    ∃ model id element,
      compileBytes ⟨.standard, .strict, .standard⟩ strayBaseSchema = .ok model ∧
      model.context.arena.Reaches model.root id ∧ id ≠ model.root ∧
      model.context.element? id = some element ∧ element.isWildcard = false ∧
      element.isComplex = false ∧ element.type? = some "Nowhere" ∧
      model.context.vocabulary.isBuiltin "Nowhere" = false := by
  have computed : compilesFlat ⟨.standard, .strict, .standard⟩ strayBaseSchema
      (Model.anyElement fun model element =>
        decide ((model.context.element? model.root).map Element.kind = some .schema ∧
          element.kind = .element ∧ element.isWildcard = false ∧ element.isComplex = false ∧
          element.type? = some "Nowhere" ∧
          model.context.vocabulary.isBuiltin "Nowhere" = false)) = true := by decide +kernel
  obtain ⟨model, id, element, compiled, reached, found, checked⟩ :=
    exists_element_of_compilesFlat computed
  obtain ⟨rootKind, isElement, notWildcard, simple, type, notBuiltin⟩ := of_decide_eq_true checked
  refine ⟨model, id, element, compiled, reached, ?_, found, notWildcard, simple, type, notBuiltin⟩
  rintro rfl
  rw [found, Option.map_some, isElement] at rootKind
  cases rootKind

/-- An element of a built-in type, and one with an attribute of it. -/
def tracedIntegerSchema : Bytes :=
  schemaDocument [
    "<s:element name='e' type='s:int'/><s:element name='f'><s:complexType>",
    "<s:attribute name='a' type='s:int'/></s:complexType></s:element>"]

/-- An element of unknown type. -/
def unknownElementTypeSchema : Bytes :=
  schemaDocument ["<s:element name='e' type='T'/>"]

/-- An element with an attribute of unknown type. -/
def unknownAttributeTypeSchema : Bytes :=
  schemaDocument [
    "<s:element name='e'><s:complexType>",
    "<s:attribute name='a' type='T'/></s:complexType></s:element>"]

/-- Integers are traced, for an element and for an attribute, and unknown types are refused, for an
element and for an attribute. -/
theorem strict_types_traced_integer :
    (∃ model id element ownerId owner declaration,
      compileBytes ⟨.standard, .strict, .standard⟩ tracedIntegerSchema = .ok model ∧
      model.context.arena.Reaches model.root id ∧ id ≠ model.root ∧
      model.context.element? id = some element ∧ element.isWildcard = false ∧
      element.isComplex = false ∧ model.context.Traces element.type? ∧
      model.context.arena.Reaches model.root ownerId ∧
      model.context.element? ownerId = some owner ∧
      owner.attributes.find? "a" = some declaration ∧
      model.context.Traces declaration.resolvedType?) ∧
    (∃ problem,
      compileBytes ⟨.standard, .strict, .standard⟩
        unknownElementTypeSchema = .error (.semantic problem)) ∧
    ∃ problem,
      compileBytes ⟨.standard, .strict, .standard⟩ unknownAttributeTypeSchema =
        .error (.semantic problem) := by
  refine ⟨?_, ?_, ?_⟩
  · have computed : compilesFlat ⟨.standard, .strict, .standard⟩ tracedIntegerSchema
        (fun model =>
        decide ((model.context.element? model.root).map Element.kind = some .schema) &&
          (model.anyElement fun _ element =>
            decide (element.kind = .element ∧ element.isWildcard = false ∧
              element.isComplex = false)) &&
          model.anyElement fun _ element => (element.attributes.find? "a").isSome) = true := by
      decide +kernel
    obtain ⟨model, compiled, checked⟩ := exists_of_compilesFlat computed
    rw [Bool.and_eq_true, Bool.and_eq_true] at checked
    obtain ⟨⟨rootKind, someSimple⟩, someOwner⟩ := checked
    obtain ⟨id, element, reached, found, holds⟩ := exists_of_anyElement someSimple
    obtain ⟨isElement, notWildcard, simple⟩ := of_decide_eq_true holds
    obtain ⟨ownerId, owner, ownerReached, ownerFound, hasAttribute⟩ :=
      exists_of_anyElement someOwner
    obtain ⟨declaration, read⟩ := Option.isSome_iff_exists.1 hasAttribute
    have inner : id ≠ model.root := by
      rintro rfl
      have schema := of_decide_eq_true rootKind
      rw [found, Option.map_some, isElement] at schema
      cases schema
    have traced := (strict_types_traced .standard .standard _).1 model compiled
    exact ⟨model, id, element, ownerId, owner, declaration, compiled, reached, inner, found,
      notWildcard, simple, (traced id element reached found).1 inner notWildcard simple,
      ownerReached, ownerFound, read, (traced ownerId owner ownerReached ownerFound).2 _ _ read⟩
  · have computed : surveysFlat ⟨.standard, .strict, .standard⟩
        unknownElementTypeSchema (fun surveyed root =>
        (surveyed.walk root).any fun id => (surveyed.element? id).any fun element =>
          !element.isPassedOver && ((Nominals.ofContext surveyed root).find? id).any fun nominal =>
            surveyed.fallsBack (.ofContext surveyed root) nominal) = true := by decide +kernel
    obtain ⟨surveyed, root, found, checked⟩ := exists_of_surveysFlat computed
    obtain ⟨id, member, holds⟩ := List.any_eq_true.1 checked
    obtain ⟨element, present, both⟩ := (Option.any_eq_true _ _).1 holds
    rw [Bool.and_eq_true, Bool.not_eq_true'] at both
    obtain ⟨nominal, hasNominal, falls⟩ := (Option.any_eq_true _ _).1 both.2
    exact (strict_types_traced .standard .standard _).2.1 surveyed root found id element nominal
      (Arena.mem_walk_iff.1 member).1 present both.1 hasNominal falls
  · have computed : compilesFlat ⟨.standard, .lenient, .standard⟩ unknownAttributeTypeSchema
        (Model.anyElement fun model element => (element.attributes.find? "a").any fun declaration =>
          model.context.attributeFallsBack declaration.dataType) = true := by decide +kernel
    obtain ⟨model, id, element, compiled, reached, found, checked⟩ :=
      exists_element_of_compilesFlat computed
    obtain ⟨declaration, read, falls⟩ := (Option.any_eq_true _ _).1 checked
    exact (strict_types_traced .standard .standard _).2.2 model compiled id element "a" declaration
      reached found read falls

end XmlSchema
