import XmlSchema.Proofs.AttributeGroups
import XmlSchema.Proofs.Resolution.Aliases

/-!
# Declarations with structure

A declaration with children or attributes should count as complex. Whether an element or a complex
type does is decided before attribute groups are merged, by its own attributes and by what stands in
the index under its name, where the first declaration of a name stays. So some declarations with a
structure are overlooked. `Context.Overlooked` lists how, in terms of the survey, and
`isComplex_iff_not_overlooked` says that no others are: in particular a declaration with children is
complex wherever nothing else has its name.
-/

namespace XmlSchema

/-- Whether a declaration has children or attributes. -/
def Element.HasStructure (element : Element) : Prop :=
  element.children ≠ [] ∨ element.attributes.isEmpty = false

namespace Context

/-! ## Definitions -/

section Definitions

variable (context : Context) (root : NodeId)

/-- Whether a group that is reached from the references of a declaration declares attributes. -/
def GainsAttributes (element : Element) : Prop :=
  ∃ name group,
    AttributeGroup.Reaches context.attributeGroups element.attributeGroupRefs name group ∧
      group.attributes.isEmpty = false

/-- The type that a declaration names, or else the element to which it refers. -/
def referent? (element : Element) : Option String :=
  (element.writtenType?.map context.vocabulary.normalize).or element.reference?

/-- Whether aliases that end so end at a built-in type. -/
def EndsBuiltin : AliasEnd → Prop
  | .simple name => context.vocabulary.isBuiltin (context.simpleTarget name) = true
  | .outside name => context.vocabulary.isBuiltin name = true
  | .structured => False

/-- The aliases from a name on end at a built-in type. -/
def LeadsToBuiltin (start : String) : Prop :=
  ∃ ending, context.AliasEnds (.ofContext context root) start ending ∧ context.EndsBuiltin ending

/-- A name is simple when no declaration stands in the index under it, or its aliases end at a
built-in type. -/
def IsSimpleName (name : String) : Prop :=
  (∀ other, ¬ context.Enters root name other) ∨ context.LeadsToBuiltin root name

/-- How a declaration with a structure can fail to count as complex. -/
inductive Overlooked (id : NodeId) (element : Element) : Prop where
  /-- It has the type of a wildcard. -/
  | wildcard (isWildcard : element.isWildcard = true) : Overlooked id element
  /-- It has no name, type or reference under which it could be looked for. -/
  | nameless (bare : element.attributes.isEmpty = true)
      (untyped : context.referent? element = none) (unnamed : element.name = "") :
      Overlooked id element
  /-- It is looked for under a type or a reference, which is simple. -/
  | typed {name : String} (bare : element.attributes.isEmpty = true)
      (typed : context.referent? element = some name) (simple : context.IsSimpleName root name) :
      Overlooked id element
  /-- All it has are attributes of groups, for which nothing stands in the index under its name. -/
  | grouped (bare : element.attributes.isEmpty = true) (childless : element.children = [])
      (gains : context.GainsAttributes element) (untyped : context.referent? element = none)
      (absent : ∀ other, ¬ context.Enters root element.name other) : Overlooked id element
  /-- Another declaration of its name stands in the index, and leads to a built-in type. -/
  | shadowed {other : NodeId} (bare : element.attributes.isEmpty = true)
      (untyped : context.referent? element = none)
      (entered : context.Enters root element.name other) (different : other ≠ id)
      (leads : context.LeadsToBuiltin root element.name) : Overlooked id element
  /-- It stands in the index itself, but a simple type has its name as well. -/
  | homonym (bare : element.attributes.isEmpty = true) (untyped : context.referent? element = none)
      (entered : context.Enters root element.name id)
      (simple : context.simpleTypes.contains element.name = true)
      (builtin : context.vocabulary.isBuiltin (context.simpleTarget element.name) = true) :
      Overlooked id element

end Definitions

/-! ## Names that lead to built-in types -/

section Names

variable {context : Context} {root : NodeId} {name : String}

/-- Where the aliases from a name on end decides whether they lead to a built-in type. -/
theorem leadsToBuiltin_iff {ending : AliasEnd}
    (ends : context.AliasEnds (.ofContext context root) name ending) :
    context.LeadsToBuiltin root name ↔ context.EndsBuiltin ending :=
  ⟨fun ⟨_, others, builtin⟩ => ends.unique others ▸ builtin, fun builtin => ⟨_, ends, builtin⟩⟩

/-- Only what leads to no built-in type stands for a structure. -/
theorem standsFor?_eq_none_iff (indexed : context.elementIndex.contains name = true) :
    context.standsFor? (.ofContext context root) name = none ↔
      ¬ context.LeadsToBuiltin root name := by
  unfold standsFor?
  rw [if_pos indexed, leadsToBuiltin_iff ((aliasEnds_iff indexed).2 rfl)]
  cases (context.aliasChain (.ofContext context root) [name] name).ending <;>
    simp [EndsBuiltin]

/-- A name that is an alias of itself leads to a built-in type only as a simple type. -/
theorem leadsToBuiltin_of_itself
    (link : context.aliasLink? (.ofContext context root) name = some name) :
    context.LeadsToBuiltin root name ↔ context.simpleTypes.contains name = true ∧
      context.vocabulary.isBuiltin (context.simpleTarget name) = true := by
  have begun : context.aliasAfter? (.ofContext context root) 0 name = some name := rfl
  by_cases typed : context.simpleTypes.contains name = true
  · rw [leadsToBuiltin_iff (.simple begun link typed)]
    exact (and_iff_right typed).symm
  · -- The alias comes back to the name at once, and ends there at a structure.
    have again : context.aliasAfter? (.ofContext context root) 1 name = some name :=
      aliasAfter?_succ_eq_some_iff.2 ⟨name, begun, link, Bool.of_not_eq_true typed⟩
    rw [leadsToBuiltin_iff (.again Nat.zero_lt_one begun again)]
    exact iff_of_false id fun both => typed both.1

end Names

end Context

/-! ## What the survey says of a declaration -/

section Survey

variable {options : Options} {document : Bytes} {surveyed : Context} {root id : NodeId}
  {element : Element} {name : String}

theorem indexed_iff_enters (found : survey options document = .ok (surveyed, root)) :
    surveyed.elementIndex.contains name = true ↔ ∃ other, surveyed.Enters root name other := by
  rw [Table.contains, Option.isSome_iff_exists]
  exact exists_congr fun _ => find?_survey_iff found

/-- Children put a declaration, or one that comes before it, into the index under its name. -/
theorem exists_enters_of_children (named : element.name ≠ "") (member : id ∈ surveyed.walk root)
    (present : surveyed.element? id = some element) (structured : element.children ≠ []) :
    ∃ other, surveyed.Enters root element.name other := by
  have bears : surveyed.Bears element.name id := ⟨element, present, rfl, .inr (.inl structured)⟩
  obtain ⟨first, isFirst⟩ := Context.exists_firstBearer member bears
  exact ⟨first, named, isFirst⟩

theorem isSimpleName_iff (found : survey options document = .ok (surveyed, root)) :
    surveyed.IsSimpleName root name ↔ surveyed.standsFor? (.ofContext surveyed root) name ≠ none := by
  unfold Context.IsSimpleName
  by_cases indexed : surveyed.elementIndex.contains name = true
  · have entered := (indexed_iff_enters found).1 indexed
    rw [Ne, Context.standsFor?_eq_none_iff indexed, not_not]
    exact or_iff_right fun absent => entered.elim absent
  · have absent : ∀ other, ¬ surveyed.Enters root name other := fun other enters =>
      indexed ((indexed_iff_enters found).2 ⟨other, enters⟩)
    refine iff_of_true (.inl absent) ?_
    unfold Context.standsFor?
    rw [if_neg indexed]
    split
    · simp
    · split <;> simp

/-- A declaration stands for what its referent stands for, or else for what its name does. -/
theorem standsFor_iff (found : survey options document = .ok (surveyed, root))
    (member : id ∈ surveyed.walk root) (present : surveyed.element? id = some element)
    (notAny : element.kind ≠ .any) :
    surveyed.declarationStandsFor? (.ofContext surveyed root) id ≠ none ↔
      surveyed.IsSimpleName root ((surveyed.referent? element).getD element.name) := by
  unfold Context.referent?
  cases hasType : element.writtenType? with
  | some written =>
      unfold Context.declarationStandsFor?
      rw [nominal_of_writtenType (sound_survey found) member present notAny hasType]
      exact (isSimpleName_iff found).symm
  | none =>
      cases refers : element.reference? with
      | some reference =>
          unfold Context.declarationStandsFor?
          rw [nominal_of_reference member present hasType refers]
          exact (isSimpleName_iff found).symm
      | none =>
          rw [(declarationStandsFor?_of_name member present hasType refers).2]
          by_cases unnamed : element.name = ""
          · rw [if_pos unnamed]
            exact iff_of_true nofun (.inl fun other enters => enters.1 unnamed)
          · rw [if_neg unnamed]
            exact (isSimpleName_iff found).symm

/-- A declaration that has its own name for a nominal type and stands in the index under it is an
alias of itself. -/
theorem aliasLink?_of_enters (found : survey options document = .ok (surveyed, root))
    (present : surveyed.element? id = some element) (untyped : surveyed.referent? element = none)
    (enters : surveyed.Enters root element.name id) :
    surveyed.aliasLink? (.ofContext surveyed root) element.name = some element.name := by
  obtain ⟨noType, plain⟩ := Option.or_eq_none_iff.1 untyped
  have nominal := (declarationStandsFor?_of_name enters.2.mem present
    (Option.map_eq_none_iff.1 noType) plain).1
  rw [if_neg enters.1] at nominal
  rw [Context.aliasLink?_of_indexed ((find?_survey_iff found).2 enters), nominal]
  rfl

/-- A declaration with a structure is overlooked exactly if it is a wildcard, or stands for a simple
type without attributes of its own. -/
theorem overlooked_iff (found : survey options document = .ok (surveyed, root))
    (member : id ∈ surveyed.walk root) (present : surveyed.element? id = some element)
    (notAny : element.kind ≠ .any)
    (structured : element.children ≠ [] ∨ element.attributes.isEmpty = false ∨
      surveyed.GainsAttributes element) :
    surveyed.Overlooked root id element ↔ element.isWildcard = true ∨
      (element.attributes.isEmpty = true ∧
        surveyed.declarationStandsFor? (.ofContext surveyed root) id ≠ none) := by
  rw [standsFor_iff found member present notAny]
  constructor
  · intro overlooked
    cases overlooked with
    | wildcard isWildcard => exact .inl isWildcard
    | nameless bare untyped unnamed =>
        rw [untyped]
        exact .inr ⟨bare, .inl fun other enters => enters.1 unnamed⟩
    | typed bare typed simple =>
        rw [typed]
        exact .inr ⟨bare, simple⟩
    | grouped bare _ _ untyped absent =>
        rw [untyped]
        exact .inr ⟨bare, .inl absent⟩
    | shadowed bare untyped _ _ leads =>
        rw [untyped]
        exact .inr ⟨bare, .inr leads⟩
    | homonym bare untyped entered simple builtin =>
        have link := aliasLink?_of_enters found present untyped entered
        rw [untyped]
        exact .inr ⟨bare, .inr ((Context.leadsToBuiltin_of_itself link).2 ⟨simple, builtin⟩)⟩
  · rintro (isWildcard | ⟨bare, simple⟩)
    · exact .wildcard isWildcard
    cases untyped : surveyed.referent? element with
    | some name =>
        rw [untyped] at simple
        exact .typed bare untyped simple
    | none =>
        rw [untyped] at simple
        by_cases unnamed : element.name = ""
        · exact .nameless bare untyped unnamed
        by_cases entered : ∃ other, surveyed.Enters root element.name other
        · have leads := simple.resolve_left fun absent => entered.elim absent
          obtain ⟨other, enters⟩ := entered
          by_cases own : other = id
          · subst own
            have link := aliasLink?_of_enters found present untyped enters
            obtain ⟨typed, builtin⟩ := (Context.leadsToBuiltin_of_itself link).1 leads
            exact .homonym bare untyped enters typed builtin
          · exact .shadowed bare untyped enters own leads
        · -- Children would have put the name into the index.
          have childless : element.children = [] := by
            by_contra structured
            exact entered (exists_enters_of_children unnamed member present structured)
          have gains : surveyed.GainsAttributes element := by
            rcases structured with children | attributes | gains
            · exact absurd childless children
            · rw [bare] at attributes
              cases attributes
            · exact gains
          exact .grouped bare childless gains untyped (not_exists.1 entered)

/-- Nothing overlooks a declaration with children that has its own name for a type, if neither
another declaration stands in the index under the name nor a simple type has it. -/
theorem not_overlooked_of_children (sound : surveyed.Sound)
    (present : surveyed.element? id = some element) (notAny : element.kind ≠ .any)
    (children : element.children ≠ []) (untyped : element.writtenType? = none)
    (plain : element.reference? = none) (named : element.name ≠ "")
    (noSimpleType : surveyed.simpleTypes.contains element.name = false)
    (alone : ∀ other, surveyed.Enters root element.name other → other = id) :
    ¬ surveyed.Overlooked root id element := by
  intro overlooked
  cases overlooked with
  | wildcard isWildcard =>
      have noType : element.type? = none :=
        ((sound.followsTag present).reference notAny untyped).trans plain
      unfold Element.isWildcard at isWildcard
      rw [noType] at isWildcard
      cases isWildcard
  | nameless _ _ unnamed => exact named unnamed
  | typed _ typed _ =>
      unfold Context.referent? at typed
      rw [untyped, plain] at typed
      cases typed
  | grouped _ childless _ _ _ => exact children childless
  | shadowed _ _ entered different _ => exact different (alone _ entered)
  | homonym _ _ _ simple _ =>
      rw [noSimpleType] at simple
      cases simple

end Survey

/-! ## Declarations of a model -/

section Models

variable {options : Options} {document : Bytes} {root id : NodeId} {element before : Element}
  {surveyed typed completed separated attributed mixed final : Context}
  (stages : Stages root surveyed typed completed separated attributed mixed final)

theorem ownAttributes_addSimpleBase (element : Element) (name : String) :
    ((element.addSimpleBase name).attributes, (element.addSimpleBase name).attributeGroupRefs) =
      (element.attributes, element.attributeGroupRefs) :=
  part_addSimpleBase (fun element => (element.attributes, element.attributeGroupRefs))
    (fun _ _ => rfl) element name

include stages in
/-- The children of a declaration are those of the survey, and it has attributes if it had some or
gains some from groups. -/
theorem Stages.hasStructure_iff (reached : final.arena.Reaches root id)
    (found : final.element? id = some element) (present : surveyed.element? id = some before) :
    element.HasStructure ↔ before.children ≠ [] ∨ before.attributes.isEmpty = false ∨
      surveyed.GainsAttributes before := by
  have sameShape : element.shape = before.shape := stages.frame_shape.holds present found
  have sameChildren : element.children = before.children := congrArg (·.2.2) sameShape
  -- The resolution of types leaves alone what decides about the attributes.
  have typing : Frame (.keeping fun element => (element.attributes, element.attributeGroupRefs))
      surveyed typed :=
    (frame_resolveTypes (fun element name _ _ => ownAttributes_addSimpleBase element name)
      (fun _ _ _ _ => rfl) root surveyed).of_ok stages.types
  obtain ⟨typedElement, typedPresent, sameParts⟩ := typing.of_element? present
  obtain ⟨sameAttributes, sameReferences⟩ := Prod.mk.inj sameParts
  have member : id ∈ typed.walk root :=
    walk_resolution stages.types ▸ stages.mem_walk_of_reaches reached found
  obtain ⟨current, occurrence, earlier, -, completedPresent⟩ :=
    Context.exists_completed_of_completeDeclarations stages.completion member typedPresent
  have gathers := AttributeGroup.gathers_mergeGroups current.attributeGroups typedElement.name
    typedElement.attributeGroupRefs
  have attributes : element.attributes.isEmpty = false ↔
      before.attributes.isEmpty = false ∨ surveyed.GainsAttributes before := by
    have sameEmptiness : element.attributes.isEmpty =
        (current.completed typedElement (current.mergedAttributes typedElement).attributes
          occurrence).attributes.isEmpty := stages.frame_isEmpty.holds completedPresent found
    rw [sameEmptiness, Table.isEmpty_eq_false_iff, Table.isEmpty_eq_false_iff]
    unfold Context.GainsAttributes
    rw [← sameAttributes, ← sameReferences, ← typing.attributeGroups, ← earlier.attributeGroups]
    simp only [Context.mem_keys_completed, Table.isEmpty_eq_false_iff]
    rw [exists_or]
    refine or_congr_right ?_
    unfold Context.mergedAttributes
    simp only [gathers.keys]
    constructor
    · rintro ⟨key, name, group, reached, declares⟩
      exact ⟨name, group, reached, key, declares⟩
    · rintro ⟨name, group, reached, key, declares⟩
      exact ⟨key, name, group, reached, declares⟩
  unfold Element.HasStructure
  rw [sameChildren, attributes]

include stages in
/-- A declaration of a model is complex unless at the survey it was a wildcard, or stood for a
simple type without attributes of its own. -/
theorem Stages.isComplex_iff (sound : surveyed.Sound) (reached : final.arena.Reaches root id)
    (found : final.element? id = some element) (present : surveyed.element? id = some before)
    (notSchema : before.kind ≠ .schema) :
    element.isComplex = true ↔ ¬ (before.isWildcard = true ∨
      (before.attributes.isEmpty = true ∧
        surveyed.declarationStandsFor? (.ofContext surveyed root) id ≠ none)) := by
  obtain ⟨again, presentAgain, -, -, passedOver, settled⟩ := stages.settled reached found
  cases present.symm.trans presentAgain
  rw [Element.isPassedOver_eq_isWildcard notSchema] at passedOver settled
  cases wildcard : before.isWildcard with
  | true =>
      have sameFlag : element.isComplex = before.isComplex := congrArg Prod.snd (passedOver wildcard)
      rw [sameFlag, (sound.followsTag present).unresolved]
      simp
  | false =>
      rw [(settled wildcard).isComplex]
      cases before.attributes.isEmpty <;> simp

end Models

/-- An element or a complex type of a model has a structure exactly if at the survey it has children
or attributes, or a group that it refers to brings some in. If it has one, it counts as complex
unless it is overlooked in one of the ways listed. With children it is complex wherever it has
neither a type nor a reference, and no other declaration and no simple type has its name. -/
theorem isComplex_iff_not_overlooked {options : Options} {document : Bytes} {model : Model}
    (compiled : compileBytes options document = .ok model) :
    ∃ surveyed, survey options document = .ok (surveyed, model.root) ∧
      ∀ id element, model.context.arena.Reaches model.root id →
        model.context.element? id = some element →
        element.kind = .element ∨ element.kind = .complexType →
        ∃ before, surveyed.element? id = some before ∧
          (element.HasStructure ↔ before.children ≠ [] ∨ before.attributes.isEmpty = false ∨
            surveyed.GainsAttributes before) ∧
          (element.HasStructure →
            (element.isComplex = true ↔ ¬ surveyed.Overlooked model.root id before)) ∧
          (element.children ≠ [] → element.writtenType? = none → element.reference? = none →
            element.name ≠ "" → model.context.simpleTypes.contains element.name = false →
            (∀ other named, model.context.arena.Reaches model.root other →
              model.context.element? other = some named → named.name = element.name →
              other = id) →
            element.isComplex = true) := by
  obtain ⟨surveyed, typed, completed, separated, attributed, mixed, found, stages⟩ :=
    exists_stages compiled
  refine ⟨surveyed, found, ?_⟩
  intro id element reached present kind
  obtain ⟨before, presentBefore, shape⟩ := stages.frame_shape.of_element?_after present
  have member := stages.mem_walk_of_reaches reached present
  have sound := sound_survey found
  have sameKind : element.kind = before.kind := congrArg Prod.fst shape
  rw [sameKind] at kind
  have notSchema : before.kind ≠ .schema := by rcases kind with same | same <;> simp [same]
  have notAny : before.kind ≠ .any := by rcases kind with same | same <;> simp [same]
  have structure_iff := stages.hasStructure_iff reached present presentBefore
  have complex_iff : element.HasStructure →
      (element.isComplex = true ↔ ¬ surveyed.Overlooked model.root id before) := by
    intro structured
    rw [overlooked_iff found member presentBefore notAny (structure_iff.1 structured)]
    exact stages.isComplex_iff sound reached present presentBefore notSchema
  refine ⟨before, presentBefore, structure_iff, complex_iff, ?_⟩
  intro children untyped plain named noSimpleType alone
  rw [stages.frame_shape.simpleTypes] at noSimpleType
  have sameName : element.name = before.name := stages.frame_name.holds presentBefore present
  have sameReference : element.reference? = before.reference? :=
    stages.frame_reference.holds presentBefore present
  have sameWritten : element.writtenType? = before.writtenType? := congrArg (·.2.1) shape
  have sameChildren : element.children = before.children := congrArg (·.2.2) shape
  refine (complex_iff (.inl children)).2 (not_overlooked_of_children sound presentBefore notAny
    (sameChildren ▸ children) (sameWritten ▸ untyped) (sameReference.symm.trans plain)
    (sameName ▸ named) (sameName ▸ noSimpleType) ?_)
  -- What stands in the index under the name has that name in the model as well.
  rintro other ⟨-, first⟩
  obtain ⟨otherBefore, otherPresent, otherNamed, -⟩ := first.bears
  obtain ⟨last, lastPresent, lastName⟩ := stages.frame_name.of_element? otherPresent
  have otherMember := first.mem
  rw [← stages.walk_final] at otherMember
  exact alone other last (Arena.mem_walk_iff.1 otherMember).1 lastPresent
    (Eq.trans lastName (otherNamed.trans sameName.symm))

/-- An element inside a type with no attribute but that of a group. -/
def groupedAttributeSchema : Bytes :=
  schemaDocument [
    "<s:attributeGroup name='G'><s:attribute name='a' type='s:string'/></s:attributeGroup>",
    "<s:complexType name='T'><s:sequence><s:element name='e'><s:complexType>",
    "<s:attributeGroup ref='G'/>",
    "</s:complexType></s:element></s:sequence></s:complexType>"]

/-- The attributes of a group alone do not make an element complex. -/
theorem hasStructure_not_complex :
    ∃ model id element, compileBytes .standard groupedAttributeSchema = .ok model ∧
      model.context.arena.Reaches model.root id ∧ model.context.element? id = some element ∧
      element.kind = .element ∧ element.HasStructure ∧ element.isComplex = false := by
  have computed : compilesFlat .standard groupedAttributeSchema
      (Model.anyElement fun _ element =>
        decide (element.kind = .element ∧ element.attributes.isEmpty = false ∧
          element.isComplex = false)) = true := by decide +kernel
  obtain ⟨model, id, element, compiled, reached, found, checked⟩ :=
    exists_element_of_compilesFlat computed
  obtain ⟨isElement, nonempty, simple⟩ := of_decide_eq_true checked
  exact ⟨model, id, element, compiled, reached, found, isElement, .inr nonempty, simple⟩

/-- Four elements inside a type, none with attributes of its own. One has a child and a name that
nothing else has. Of the others, one has only attributes of a group, one the name of an earlier
element, and one the name of a simple type. -/
def overlookingSchema : Bytes :=
  schemaDocument [
    "<s:attributeGroup name='G'><s:attribute name='a' type='s:string'/></s:attributeGroup>",
    "<s:simpleType name='homonym'><s:restriction base='s:int'/></s:simpleType>",
    "<s:element name='shadowed' type='s:int'/><s:complexType name='T'><s:sequence>",
    "<s:element name='kept'><s:complexType><s:sequence><s:element name='k' type='s:int'/>",
    "</s:sequence></s:complexType></s:element>",
    "<s:element name='grouped'><s:complexType><s:attributeGroup ref='G'/></s:complexType>",
    "</s:element>",
    "<s:element name='shadowed'><s:complexType><s:sequence><s:element name='s' type='s:int'/>",
    "</s:sequence></s:complexType></s:element>",
    "<s:element name='homonym'><s:complexType><s:sequence><s:element name='h' type='s:int'/>",
    "</s:sequence></s:complexType></s:element></s:sequence></s:complexType>"]

/-- Only the element whose name nothing else has is complex. -/
theorem isComplex_iff_not_overlooked_children :
    ∃ (model : Model) (surveyed : Context),
      compileBytes .standard overlookingSchema = .ok model ∧
      survey .standard overlookingSchema = .ok (surveyed, model.root) ∧
      (∃ id element before, model.context.arena.Reaches model.root id ∧
        model.context.element? id = some element ∧ element.kind = .element ∧
        element.name = "kept" ∧ element.attributes.isEmpty = true ∧ element.HasStructure ∧
        element.isComplex = true ∧ surveyed.element? id = some before ∧
        ¬ surveyed.Overlooked model.root id before) ∧
      ∀ name ∈ ["grouped", "shadowed", "homonym"], ∃ id element before,
        model.context.arena.Reaches model.root id ∧ model.context.element? id = some element ∧
        element.kind = .element ∧ element.name = name ∧ element.HasStructure ∧
        element.isComplex = false ∧ surveyed.element? id = some before ∧
        surveyed.Overlooked model.root id before := by
  have computed : compilesFlat .standard overlookingSchema (fun model =>
      ((model.context.walk model.root).any fun id =>
        ((model.context.element? id).any fun element =>
          decide (element.kind = .element ∧ element.name = "kept" ∧
            element.attributes.isEmpty = true ∧ element.children ≠ [] ∧
            element.writtenType? = none ∧ element.reference? = none)) &&
        (model.context.walk model.root).all fun other =>
          (model.context.element? other).all fun named =>
            decide (named.name = "kept" → other = id)) &&
      !model.context.simpleTypes.contains "kept" &&
      ["grouped", "shadowed", "homonym"].all fun name =>
        model.anyElement fun _ element =>
          decide (element.kind = .element ∧ element.name = name ∧
            (element.children ≠ [] ∨ element.attributes.isEmpty = false) ∧
            element.isComplex = false)) = true := by decide +kernel
  obtain ⟨model, compiled, checked⟩ := exists_of_compilesFlat computed
  rw [Bool.and_eq_true, Bool.and_eq_true, List.any_eq_true, List.all_eq_true,
    Bool.not_eq_true'] at checked
  obtain ⟨⟨⟨id, member, kept⟩, noSimpleType⟩, others⟩ := checked
  rw [Bool.and_eq_true, Option.any_eq_true, List.all_eq_true] at kept
  obtain ⟨⟨element, present, facts⟩, alone⟩ := kept
  obtain ⟨isElement, named, bare, children, untyped, plain⟩ := of_decide_eq_true facts
  obtain ⟨surveyed, surveys, all⟩ := isComplex_iff_not_overlooked compiled
  refine ⟨model, surveyed, compiled, surveys, ?_, fun name listed => ?_⟩
  · have reached := (Arena.mem_walk_iff.1 member).1
    obtain ⟨before, presentBefore, -, complex_iff, ordinary⟩ :=
      all id element reached present (.inl isElement)
    have complex := ordinary children untyped plain (by rw [named]; decide)
      (named.symm ▸ noSimpleType) fun other otherElement otherReached otherPresent sameName => by
        have inWalk : other ∈ model.context.walk model.root :=
          Arena.mem_walk_iff.2 ⟨otherReached, Option.isSome_iff_exists.2 ⟨_, otherPresent⟩⟩
        have checked := alone other inWalk
        rw [otherPresent] at checked
        exact of_decide_eq_true checked (sameName.trans named)
    exact ⟨id, element, before, reached, present, isElement, named, bare, .inl children, complex,
      presentBefore, (complex_iff (.inl children)).1 complex⟩
  · obtain ⟨id, element, reached, present, facts⟩ := exists_of_anyElement (others name listed)
    obtain ⟨isElement, named, structured, simple⟩ := of_decide_eq_true facts
    obtain ⟨before, presentBefore, -, complex_iff, -⟩ :=
      all id element reached present (.inl isElement)
    have overlooked : surveyed.Overlooked model.root id before := by
      by_contra seen
      rw [(complex_iff structured).2 seen] at simple
      cases simple
    exact ⟨id, element, before, reached, present, isElement, named, structured, simple,
      presentBefore, overlooked⟩

end XmlSchema
