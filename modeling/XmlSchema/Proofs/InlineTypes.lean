import XmlSchema.Proofs.FlatTrees
import XmlSchema.Proofs.Models
import XmlSchema.Proofs.Tree.InlineTypes

/-!
# Elements with a simple type inside them

An element with neither a type nor a reference, in which a simple type stands that restricts a
built-in type, should have that built-in type. The simple type is known to the tables under the name
of the element only, and it is by this name that resolution looks for it. So the element has its own
type where no other type took the name first and no other declaration has it in the index,
`isSimply_iff_inlineType`; else it has the type of whatever bears the name, `types_share_names`.
-/

namespace XmlSchema

/-- Whether an element has a simple type, and no structure. -/
def Element.IsSimply (element : Element) (type : String) : Prop :=
  element.type? = some type ∧ element.isComplex = false

/-! ## What a name stands for -/

section Names

variable {context : Context} {root id : NodeId} {name base : String}

/-- A simple type whose base is no simple type of the table leads to that base. -/
theorem simpleTarget_of_base {simpleType : SimpleType}
    (found : context.simpleType? name = some simpleType) (based : simpleType.base? = some base)
    (outside : context.simpleType? (context.vocabulary.tableName base) = none) :
    context.simpleTarget name = context.vocabulary.tableName base := by
  have last : ∀ hops, context.simpleChain hops (context.vocabulary.tableName base) =
      ⟨[], .leaves (context.vocabulary.tableName base)⟩ := by
    intro hops
    unfold Context.simpleChain
    rw [outside]
  have ending : ∀ hops, (context.simpleChain hops name).ending =
      .leaves (context.vocabulary.tableName base) := by
    intro hops
    unfold Context.simpleChain
    rw [found]
    dsimp only
    rw [based]
    cases hops with
    | zero =>
        dsimp only
        rw [outside]
        rfl
    | succ hops =>
        dsimp only
        rw [last]
  unfold Context.simpleTarget
  rw [ending]

/-- A name that is that of a simple type, and of no declaration in the index but one which is looked
for under it, stands for the target of the simple type. -/
theorem standsFor?_of_simpleTarget
    (nominal : (Nominals.ofContext context root).find? id = some ⟨name, .name⟩)
    (declared : context.simpleTypes.contains name = true)
    (target : context.vocabulary.isBuiltin (context.simpleTarget name) = true)
    (alone : ∀ other, context.elementIndex.find? name = some other → other = id) :
    context.standsFor? (.ofContext context root) name = some (context.simpleTarget name) := by
  unfold Context.standsFor?
  cases indexed : context.elementIndex.find? name with
  | none =>
      have unindexed : context.elementIndex.contains name = false := by
        unfold Table.contains
        rw [indexed]
        rfl
      rw [unindexed, declared]
      rfl
  | some other =>
      have same := alone other indexed
      subst same
      have ending : (context.aliasChain (.ofContext context root) [name] name).ending =
          .simple name := by
        rw [Context.aliasChain_step, indexed]
        dsimp only
        rw [nominal]
        dsimp only
        rw [if_pos declared]
      rw [if_pos (Table.contains_of_find? indexed), ending]
      dsimp only
      rw [if_pos target]

end Names

/-! ## Elements of a model -/

section Elements

variable {root id : NodeId} {element : Element}
  {surveyed typed completed separated attributed mixed final : Context}
  (stages : Stages root surveyed typed completed separated attributed mixed final)

include stages in
/-- An element without a type, a reference or attributes is of the simple type for which its name
stood at the survey, if it stood for one. Without a name it is a string. -/
theorem Stages.isSimply_iff (sound : surveyed.Sound) (reached : final.arena.Reaches root id)
    (found : final.element? id = some element) (isElement : element.kind = .element)
    (untyped : element.writtenType? = none) (plain : element.reference? = none)
    (bare : element.attributes.isEmpty = true) (type : String) :
    (element.IsSimply type ↔
      (if element.name = "" then some surveyed.vocabulary.stringType
        else surveyed.standsFor? (.ofContext surveyed root) element.name) = some type) ∧
      (element.name ≠ "" →
        (Nominals.ofContext surveyed root).find? id = some ⟨element.name, .name⟩) := by
  obtain ⟨before, present, shape, growing, -, settled⟩ := stages.settled reached found
  have sameReference : element.reference? = before.reference? :=
    stages.frame_reference.holds present found
  have sameName : element.name = before.name := stages.frame_name.holds present found
  unfold Element.shape at shape
  rw [Prod.mk.injEq, Prod.mk.injEq] at shape
  obtain ⟨sameKind, sameWritten, -⟩ := shape
  have untypedBefore : before.writtenType? = none := sameWritten.symm.trans untyped
  have plainBefore : before.reference? = none := sameReference.symm.trans plain
  have typedBefore : before.isPassedOver = false := by
    have noType : before.type? = none := by
      have follows := (sound.followsTag present).reference
        (by rw [← sameKind, isElement]; decide) untypedBefore
      exact follows.trans plainBefore
    unfold Element.isPassedOver Element.isWildcard
    rw [noType, ← sameKind, isElement]
    rfl
  obtain ⟨nominal, stands⟩ := declarationStandsFor?_of_name
    (stages.mem_walk_of_reaches reached found) present untypedBefore plainBefore
  rw [← sameName] at nominal stands
  refine ⟨?_, fun named => by rw [nominal, if_neg named]⟩
  rw [← stands]
  have flag := (settled typedBefore).isComplex
  rw [growing bare, Bool.not_true, Bool.false_or] at flag
  constructor
  · rintro ⟨hasType, simple⟩
    rw [simple] at flag
    cases meaning : surveyed.declarationStandsFor? (.ofContext surveyed root) id with
    | none =>
        rw [meaning] at flag
        cases flag
    | some other => exact ((settled typedBefore).simple other meaning).symm.trans hasType
  · intro meaning
    refine ⟨(settled typedBefore).simple type meaning, ?_⟩
    rw [flag, meaning]
    rfl

end Elements

/-- What the survey leaves of what is read: the vocabulary, the simple types and the names. -/
theorem kept_survey {options : Options} {document : Bytes} {surveyed : Context} {root : NodeId}
    (found : survey options document = .ok (surveyed, root)) :
    ∃ context, readTree (.initial options) document = .ok (context, root) ∧
      surveyed.vocabulary = context.vocabulary ∧ surveyed.simpleTypes = context.simpleTypes ∧
      (∀ id, surveyed.arena.simpleType? id = context.arena.simpleType? id) ∧
      ∀ id element, context.element? id = some element →
        ∃ later, surveyed.element? id = some later ∧ later.name = element.name := by
  obtain ⟨context, expanded, read, expandedGroups, rfl⟩ := exists_of_survey found
  have frame : Frame (.keeping Element.name) context expanded :=
    (frame_expandGroups (fun _ _ => rfl) root context).of_ok expandedGroups
  rw [indexElements_eq]
  exact ⟨context, read, frame.vocabulary, frame.simpleTypes, frame.simpleType?,
    fun id element present => frame.of_element? present⟩

/-- The tag of an element in which an inline type stands, behind some events of a document that
compiles. -/
theorem exists_meetsInlineType {document : Bytes} (base : String) {count : Nat}
    {check : Assembly → Model → Bool}
    (tail : ((Xml.read document).events.map Xml.Located.value).drop count =
      .opening "s:element" (.ofList [("name", "v")]) ::
        ([.opening "s:simpleType" .empty, .empty "s:restriction" (.ofList [("base", base)]),
          .closing] ++ .closing :: [.closing]))
    (takes : takesEvents .standard (((Xml.read document).events.map Xml.Located.value).take count)
      (fun before => decide (before.within .attribute = false ∧ before.insideSimpleType = false) &&
        compilesFlat .standard document (check before)) = true) :
    ∃ before model, MeetsInlineType .standard document ⟨"s:"⟩ base before ∧
      compileBytes .standard document = .ok model ∧ check before model = true := by
  obtain ⟨before, reached, checked⟩ := exists_of_takesEvents takes
  rw [Bool.and_eq_true, decide_eq_true_eq] at checked
  obtain ⟨⟨outside, outermost⟩, computed⟩ := checked
  obtain ⟨model, compiled, holds⟩ := exists_of_compilesFlat computed
  have split := (List.take_append_drop count
    ((Xml.read document).events.map Xml.Located.value)).symm.trans (congrArg (_ ++ ·) tail)
  refine ⟨before, model, .intro split reached (by decide +kernel) outside outermost
    (.tag _ _ (.empty _ _ .nothing) .nothing) ?_, compiled, holds⟩
  have restricts : (Table.ofList [("base", base)]).find? "base" = some base := rfl
  exact .here (by decide +kernel) ⟨rfl, .here (by decide +kernel) ⟨restricts, trivial⟩ trivial⟩
    trivial

/-- An element without a type, a reference or attributes, in which a simple type without a name
restricts a built-in type, has that type exactly when its name stands for it at the survey; without
a name, when it is the string type. Its name does so where no simple type was called so before the
element, no other declaration has the name in the index, and no simple type is called like the base.
-/
theorem isSimply_iff_inlineType {options : Options} {document : Bytes} {model : Model}
    (compiled : compileBytes options document = .ok model) :
    ∃ surveyed, survey options document = .ok (surveyed, model.root) ∧
      ∀ (base : String) (before : Assembly) (element : Element),
        MeetsInlineType options document model.context.vocabulary base before →
        model.context.vocabulary.isBuiltin base = true →
        model.context.arena.Reaches model.root before.context.arena.nextId →
        model.context.element? before.context.arena.nextId = some element →
        element.kind = .element → element.writtenType? = none → element.reference? = none →
        element.attributes.isEmpty = true →
        (element.IsSimply base ↔
          (if element.name = "" then some model.context.vocabulary.stringType
            else surveyed.standsFor? (.ofContext surveyed model.root) element.name) = some base) ∧
        (element.name ≠ "" → before.context.simpleTypes.contains element.name = false →
          (∀ other, model.context.elementIndex.find? element.name = some other →
            other = before.context.arena.nextId) →
          model.context.simpleTypes.contains base = false → element.IsSimply base) := by
  obtain ⟨surveyed, typed, completed, separated, attributed, mixed, found, stages⟩ :=
    exists_stages compiled
  refine ⟨surveyed, found, ?_⟩
  intro base before element meets builtin reaches present isElement untyped plain bare
  have frame := stages.frame_shape
  obtain ⟨context, read, sameVocabulary, sameTypes, sameSimple, names⟩ := kept_survey found
  obtain ⟨iff, nominal⟩ := stages.isSimply_iff (sound_survey found) reaches present isElement
    untyped plain bare base
  rw [frame.vocabulary] at meets builtin ⊢
  refine ⟨iff, fun named free alone unbased => iff.2 ?_⟩
  rw [if_neg named]
  rw [frame.elementIndex] at alone
  rw [frame.simpleTypes] at unbased
  -- The table has the type inside the element under the name of the element.
  rw [sameVocabulary] at meets
  obtain ⟨original, originalPresent, derived, entered⟩ := exists_inlineType_readTree read meets
  have sameName : element.name = original.name := by
    obtain ⟨again, presentAgain, name⟩ := names _ _ originalPresent
    have lastName : element.name = again.name := stages.frame_name.holds presentAgain present
    exact lastName.trans name
  have isFree : before.context.simpleTypes.find? original.name = none := by
    rw [← sameName]
    exact Option.not_isSome_iff_eq_none.1 (Bool.eq_false_iff.1 free)
  have registered := entered (sameName ▸ named) isFree
  rw [← sameName, ← sameTypes] at registered
  rw [Context.derivation?_eq_map, ← sameSimple] at derived
  obtain ⟨simpleType, isType, sameDerivation⟩ := Option.map_eq_some_iff.1 derived
  have based : simpleType.base? = some base :=
    congrArg SimpleType.Derivation.base? sameDerivation
  -- So the name leads to the base.
  have tableName : surveyed.vocabulary.tableName base = base := if_pos builtin
  have target : surveyed.simpleTarget element.name = base := by
    have found : surveyed.simpleType? element.name = some simpleType := by
      unfold Context.simpleType?
      rw [registered]
      exact isType
    have absent : surveyed.simpleType? (surveyed.vocabulary.tableName base) = none := by
      rw [tableName]
      unfold Context.simpleType?
      rw [Option.not_isSome_iff_eq_none.1 (Bool.eq_false_iff.1 unbased)]
      rfl
    rw [simpleTarget_of_base found based absent, tableName]
  rw [standsFor?_of_simpleTarget (nominal named) (Table.contains_of_find? registered)
    (by rw [target]; exact builtin) alone, target]

/-- An element with a simple type inside it, and an element of the same name inside a type. -/
def localNamesakeSchema : Bytes :=
  schemaDocument [
    "<s:complexType name='A'><s:sequence><s:element name='v' type='s:string'/></s:sequence>",
    "</s:complexType>",
    "<s:element name='v'><s:simpleType><s:restriction base='s:int'/></s:simpleType>",
    "</s:element>"]

/-- A local element of the same name does not keep an element from the type inside it. -/
theorem isSimply_iff_inlineType_integer :
    ∃ (model : Model) (surveyed : Context) (before : Assembly) (element : Element),
      compileBytes .standard localNamesakeSchema = .ok model ∧
      survey .standard localNamesakeSchema = .ok (surveyed, model.root) ∧
      MeetsInlineType .standard localNamesakeSchema model.context.vocabulary "s:int" before ∧
      model.context.vocabulary.isBuiltin "s:int" = true ∧
      model.context.arena.Reaches model.root before.context.arena.nextId ∧
      model.context.element? before.context.arena.nextId = some element ∧
      element.kind = .element ∧ element.name = "v" ∧ element.writtenType? = none ∧
      element.reference? = none ∧ element.attributes.isEmpty = true ∧
      surveyed.standsFor? (.ofContext surveyed model.root) "v" = some "s:int" ∧
      element.IsSimply "s:int" := by
  have takes : takesEvents .standard
      (((Xml.read localNamesakeSchema).events.map Xml.Located.value).take 6) (fun before =>
        decide (before.within .attribute = false ∧ before.insideSimpleType = false) &&
        compilesFlat .standard localNamesakeSchema (fun model =>
          decide (before.context.simpleTypes.contains "v" = false ∧
            before.context.arena.nextId ∈ model.context.walk model.root ∧
            model.context.vocabulary = ⟨"s:"⟩ ∧
            model.context.vocabulary.isBuiltin "s:int" = true ∧
            model.context.elementIndex.find? "v" = some before.context.arena.nextId ∧
            model.context.simpleTypes.contains "s:int" = false) &&
          (model.context.element? before.context.arena.nextId).any fun element =>
            decide (element.kind = .element ∧ element.name = "v" ∧ element.writtenType? = none ∧
              element.reference? = none ∧ element.attributes.isEmpty = true))) = true := by
    decide +kernel
  obtain ⟨before, model, meets, compiled, checked⟩ :=
    exists_meetsInlineType "s:int" (by decide +kernel) takes
  rw [Bool.and_eq_true, decide_eq_true_eq, Option.any_eq_true] at checked
  obtain ⟨⟨free, member, vocabulary, builtin, indexed, unbased⟩, element, found, facts⟩ := checked
  obtain ⟨isElement, named, untyped, plain, bare⟩ := of_decide_eq_true facts
  rw [← vocabulary] at meets
  have reached := (Arena.mem_walk_iff.1 member).1
  obtain ⟨surveyed, surveys, all⟩ := isSimply_iff_inlineType compiled
  obtain ⟨iff, keeps⟩ := all "s:int" before element meets builtin reached found isElement untyped
    plain bare
  rw [named] at iff keeps
  have simply := keeps (by decide) free
    (fun other entered => Option.some.inj (entered.symm.trans indexed)) unbased
  exact ⟨model, surveyed, before, element, compiled, surveys, meets, builtin, reached, found,
    isElement, named, untyped, plain, bare, (if_neg (by decide)).symm.trans (iff.1 simply), simply⟩

/-- Two elements of one name, each with a simple type inside it. -/
def inlineNamesakeSchema : Bytes :=
  schemaDocument [
    "<s:complexType name='A'><s:sequence><s:element name='v'>",
    "<s:simpleType><s:restriction base='s:string'/></s:simpleType>",
    "</s:element></s:sequence></s:complexType>",
    "<s:element name='v'><s:simpleType><s:restriction base='s:int'/></s:simpleType>",
    "</s:element>"]

/-- Two elements of one name in different places share the inline type of the first. -/
theorem types_share_names :
    ∃ (model : Model) (before : Assembly) (element : Element),
      compileBytes .standard inlineNamesakeSchema = .ok model ∧
      MeetsInlineType .standard inlineNamesakeSchema model.context.vocabulary "s:int" before ∧
      model.context.vocabulary.isBuiltin "s:int" = true ∧
      model.context.arena.Reaches model.root before.context.arena.nextId ∧
      model.context.element? before.context.arena.nextId = some element ∧
      element.kind = .element ∧ element.writtenType? = none ∧ element.reference? = none ∧
      element.attributes.isEmpty = true ∧ element.type? = some "s:string" ∧
      ¬ element.IsSimply "s:int" := by
  have takes : takesEvents .standard
      (((Xml.read inlineNamesakeSchema).events.map Xml.Located.value).take 10) (fun before =>
        decide (before.within .attribute = false ∧ before.insideSimpleType = false) &&
        compilesFlat .standard inlineNamesakeSchema (fun model =>
          decide (before.context.arena.nextId ∈ model.context.walk model.root ∧
            model.context.vocabulary = ⟨"s:"⟩ ∧
            model.context.vocabulary.isBuiltin "s:int" = true) &&
          (model.context.element? before.context.arena.nextId).any fun element =>
            decide (element.kind = .element ∧ element.writtenType? = none ∧
              element.reference? = none ∧ element.attributes.isEmpty = true ∧
              element.type? = some "s:string"))) = true := by decide +kernel
  obtain ⟨before, model, meets, compiled, checked⟩ :=
    exists_meetsInlineType "s:int" (by decide +kernel) takes
  rw [Bool.and_eq_true, decide_eq_true_eq, Option.any_eq_true] at checked
  obtain ⟨⟨member, vocabulary, builtin⟩, element, found, facts⟩ := checked
  obtain ⟨isElement, untyped, plain, bare, type⟩ := of_decide_eq_true facts
  rw [← vocabulary] at meets
  refine ⟨model, before, element, compiled, meets, builtin, (Arena.mem_walk_iff.1 member).1, found,
    isElement, untyped, plain, bare, type, fun simply => ?_⟩
  rw [simply.1] at type
  exact absurd type (by decide)

end XmlSchema
