import XmlSchema.Proofs.FlatTrees
import XmlSchema.Proofs.Models

/-!
# Elements of built-in types

An element whose type attribute is the name of a built-in type should have that type. It has it
where the name stands for itself, and where the name stands for a structure while the element has
attributes. Names are looked for in the tables first, so a declaration of the same name can make the
name stand for something else; a name that is in no table stands for itself.
-/

namespace XmlSchema

/-- Whether an element has the type as written, as a simple type unless it has attributes. -/
def Element.KeepsType (element : Element) (written : String) : Prop :=
  element.type? = some written ∧ (element.attributes.isEmpty = true → element.isComplex = false)

theorem standsFor?_of_unregistered {context : Context} {nominals : Nominals} {name : String}
    (unindexed : context.elementIndex.contains name = false)
    (undeclared : context.simpleTypes.contains name = false)
    (builtin : context.vocabulary.isBuiltin name = true) :
    context.standsFor? nominals name = some name := by
  unfold Context.standsFor?
  rw [unindexed, undeclared, builtin]
  rfl

theorem keepsType_iff_of_settled {context : Context} {root id : NodeId} {before element : Element}
    {written : String}
    (settled : Settled context (.ofContext context root) id before element)
    (nominal : (Nominals.ofContext context root).find? id = some ⟨written, .type⟩)
    (growing : element.attributes.isEmpty = true → before.attributes.isEmpty = true) :
    element.KeepsType written ↔
      context.standsFor? (.ofContext context root) written = some written ∨
        (context.standsFor? (.ofContext context root) written = none ∧
          element.attributes.isEmpty = false) := by
  have declared : context.declarationStandsFor? (.ofContext context root) id =
      context.standsFor? (.ofContext context root) written := by
    unfold Context.declarationStandsFor?
    rw [nominal]
  have flag := settled.isComplex
  rw [declared] at flag
  cases stands : context.standsFor? (.ofContext context root) written with
  | some type =>
      have hasType := settled.simple type (declared.trans stands)
      constructor
      · rintro ⟨sameType, -⟩
        exact .inl (hasType.symm.trans sameType)
      · rintro (same | ⟨absent, -⟩)
        · refine ⟨hasType.trans same, fun empty => ?_⟩
          rw [flag, stands, growing empty]
          rfl
        · cases absent
  | none =>
      have hasType := settled.structured _ nominal (declared.trans stands)
      rw [stands] at flag
      have complex : element.isComplex = true := flag.trans (Bool.or_true _)
      constructor
      · rintro ⟨-, simple⟩
        refine .inr ⟨rfl, ?_⟩
        cases empty : element.attributes.isEmpty with
        | false => rfl
        | true =>
            rw [simple empty] at complex
            cases complex
      · rintro (contradiction | ⟨-, nonempty⟩)
        · cases contradiction
        · refine ⟨hasType, fun empty => ?_⟩
          rw [nonempty] at empty
          cases empty

/-- An element declared with a built-in type has that type exactly when the name stands for itself
at the survey, or for a structure while the element has attributes. Where the name is in no table,
it has that type. -/
theorem keepsType_iff {options : Options} {document : Bytes} {model : Model}
    (compiled : compileBytes options document = .ok model) :
    ∃ surveyed, survey options document = .ok (surveyed, model.root) ∧
      ∀ id element written, model.context.arena.Reaches model.root id →
        model.context.element? id = some element → element.kind = .element →
        element.writtenType? = some written →
        model.context.vocabulary.isBuiltin written = true →
        (element.KeepsType written ↔
          surveyed.standsFor? (.ofContext surveyed model.root) written = some written ∨
            (surveyed.standsFor? (.ofContext surveyed model.root) written = none ∧
              element.attributes.isEmpty = false)) ∧
        (model.context.elementIndex.contains written = false →
          model.context.simpleTypes.contains written = false → element.KeepsType written) := by
  obtain ⟨surveyed, typed, completed, separated, attributed, mixed, found, stages⟩ :=
    exists_stages compiled
  refine ⟨surveyed, found, ?_⟩
  intro id element written reached present isElement hasType builtin
  obtain ⟨before, presentBefore, shape, growing, -, settled⟩ := stages.settled reached present
  have frame := stages.frame_shape
  unfold Element.shape at shape
  rw [Prod.mk.injEq, Prod.mk.injEq] at shape
  obtain ⟨sameKind, sameWritten, -⟩ := shape
  rw [frame.vocabulary] at builtin
  have notAny : before.kind ≠ .any := by
    rw [← sameKind, isElement]
    decide
  have hasTypeBefore : before.writtenType? = some written := sameWritten.symm.trans hasType
  have type := ((sound_survey found).followsTag presentBefore).type notAny written hasTypeBefore
  rw [Vocabulary.normalize_of_isBuiltin builtin] at type
  have typedBefore : before.isPassedOver = false := by
    have notWildcard : written ≠ wildcardType := by
      rintro rfl
      rw [Vocabulary.isBuiltin_wildcardType] at builtin
      cases builtin
    unfold Element.isPassedOver Element.isWildcard
    rw [type, ← sameKind, isElement]
    simpa using notWildcard
  have member := stages.mem_walk_of_reaches reached present
  have nominal := nominal_of_writtenType (sound_survey found) member presentBefore notAny
    hasTypeBefore
  rw [Vocabulary.normalize_of_isBuiltin builtin] at nominal
  have keeps := keepsType_iff_of_settled (settled typedBefore) nominal growing
  refine ⟨keeps, fun unindexed undeclared => keeps.2 (.inl ?_)⟩
  rw [frame.elementIndex] at unindexed
  rw [frame.simpleTypes] at undeclared
  exact standsFor?_of_unregistered unindexed undeclared builtin

/-- A schema without a qualifier, with an element called like a built-in type. -/
def shadowedBuiltinSchema : Bytes :=
  Text.Utf8.encode ("<schema xmlns='http://www.w3.org/2001/XMLSchema'>" ++
    "<element name='string' type='int'/><element name='b' type='string'/></schema>")

/-- In a document that gives no qualifier to the schema language, an element called like a built-in
type takes the place of that type. -/
theorem not_keepsType_shadowed :
    ∃ model id element, compileBytes .standard shadowedBuiltinSchema = .ok model ∧
      model.context.arena.Reaches model.root id ∧ model.context.element? id = some element ∧
      element.kind = .element ∧ element.writtenType? = some "string" ∧
      model.context.vocabulary.isBuiltin "string" = true ∧ ¬ element.KeepsType "string" := by
  have computed : compilesFlat .standard shadowedBuiltinSchema
      (Model.anyElement fun model element =>
      decide (element.kind = .element ∧ element.writtenType? = some "string" ∧
        model.context.vocabulary.isBuiltin "string" = true ∧ element.type? ≠ some "string")) =
      true := by decide +kernel
  obtain ⟨model, id, element, compiled, reached, found, checked⟩ :=
    exists_element_of_compilesFlat computed
  obtain ⟨isElement, hasType, builtin, otherType⟩ := of_decide_eq_true checked
  exact ⟨model, id, element, compiled, reached, found, isElement, hasType, builtin,
    fun keeps => otherType keeps.1⟩

/-- An integer inside a type, beside an element and a simple type that have the local name of its
type, and an alias of that element. -/
def besideNamesakesSchema : Bytes :=
  schemaDocument [
    "<s:simpleType name='int'><s:restriction base='s:boolean'/></s:simpleType>",
    "<s:element name='int' type='s:string'/><s:element name='a' type='int'/>",
    "<s:complexType name='T'><s:sequence><s:element ref='a'/>",
    "<s:element name='e' type='s:int'/></s:sequence></s:complexType>"]

/-- An element of a document with a qualifier keeps its type, since nothing else has the name of the
type together with the qualifier. -/
theorem keepsType_integer :
    ∃ (model : Model) (surveyed : Context) (id : NodeId) (element : Element),
      compileBytes .standard besideNamesakesSchema = .ok model ∧
      survey .standard besideNamesakesSchema = .ok (surveyed, model.root) ∧
      model.context.arena.Reaches model.root id ∧ model.context.element? id = some element ∧
      element.kind = .element ∧ element.writtenType? = some "s:int" ∧
      model.context.vocabulary.isBuiltin "s:int" = true ∧
      (element.KeepsType "s:int" ↔
        surveyed.standsFor? (.ofContext surveyed model.root) "s:int" = some "s:int" ∨
          (surveyed.standsFor? (.ofContext surveyed model.root) "s:int" = none ∧
            element.attributes.isEmpty = false)) ∧
      element.KeepsType "s:int" := by
  have computed : compilesFlat .standard besideNamesakesSchema
      (Model.anyElement fun model element =>
      decide (element.kind = .element ∧ element.writtenType? = some "s:int" ∧
        model.context.vocabulary.isBuiltin "s:int" = true ∧
        model.context.elementIndex.contains "s:int" = false ∧
        model.context.simpleTypes.contains "s:int" = false)) = true := by decide +kernel
  obtain ⟨model, id, element, compiled, reached, found, checked⟩ :=
    exists_element_of_compilesFlat computed
  obtain ⟨isElement, hasType, builtin, unindexed, undeclared⟩ := of_decide_eq_true checked
  obtain ⟨surveyed, surveys, all⟩ := keepsType_iff compiled
  obtain ⟨keeps, unregistered⟩ := all id element "s:int" reached found isElement hasType builtin
  exact ⟨model, surveyed, id, element, compiled, surveys, reached, found, isElement, hasType,
    builtin, keeps, unregistered unindexed undeclared⟩

end XmlSchema
