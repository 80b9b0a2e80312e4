import XmlSchema.Proofs.Names
import XmlSchema.Proofs.PassFrames
import XmlSchema.Proofs.Reachability

/-!
# What the resolution of types finds

After `resolveTypes`, each declaration below the root, the schema and wildcards apart, has the
simple type for which its nominal type stands, and it counts as complex if it has attributes of its
own or its nominal type stands for a structure: `settled_of_resolveTypes`. Since each declaration is
written once and the tables stay as they are, this is said in terms of the context before the pass.
-/

namespace XmlSchema

variable {context next : Context} {nominals : Nominals}

/-! ## One declaration -/

theorem noteSimpleType_elsewhere {id other : NodeId} (different : other ≠ id) (nominal : Nominal) :
    (context.noteSimpleType id nominal).element? other = context.element? other := by
  unfold Context.noteSimpleType
  split
  · exact element?_modifyElement_other different _
  · rfl

theorem settle_elsewhere {id other : NodeId} (different : other ≠ id) (resolution : Resolution) :
    (context.settle id resolution).element? other = context.element? other := by
  unfold Context.settle
  split
  · rfl
  · dsimp only
    split
    · exact element?_modifyElement_other different _
    · exact element?_modifyElement_other different _

theorem resolveElement_elsewhere {id other : NodeId}
    (resolved : resolveElement nominals context id = .ok next) (different : other ≠ id) :
    next.element? other = context.element? other := by
  unfold resolveElement at resolved
  split at resolved
  · cases resolved
    rfl
  · split at resolved
    · cases resolved
      rfl
    · split at resolved
      · cases resolved
        exact settle_elsewhere different _
      · dsimp only at resolved
        split at resolved
        · cases resolved
        · cases resolved
          rw [settle_elsewhere different, noteSimpleType_elsewhere different]

/-- The declaration with what was found out about it. -/
def Element.settledBy (element : Element) (resolution : Resolution) : Element :=
  { element with
    type? := some resolution.type.name
    isComplex := !element.attributes.isEmpty || resolution.isStructured
    facets := element.facets.orElse (resolution.type.facets?.getD element.facets) }

/-- What a declaration is after it has been settled. -/
theorem element?_settle {id : NodeId} {element : Element}
    (found : context.element? id = some element) (resolution : Resolution) :
    (context.settle id resolution).element? id = some (element.settledBy resolution) := by
  unfold Context.settle
  rw [found]
  dsimp only
  split
  · exact element?_modifyElement_self found _
  · exact element?_modifyElement_self found _

/-- The declaration with the simple type that is its nominal type, if it is one. -/
def Context.noted (context : Context) (nominal : Nominal) (element : Element) : Element :=
  if context.simpleTypes.contains nominal.name then
    { element.addSimpleBase nominal.name with
      isList := element.isList || context.isListType nominal.name
      simpleType? := if nominal.source = .type then some nominal.name else element.simpleType? }
  else element

theorem element?_noteSimpleType {id : NodeId} {element : Element}
    (found : context.element? id = some element) (nominal : Nominal) :
    (context.noteSimpleType id nominal).element? id = some (context.noted nominal element) := by
  unfold Context.noteSimpleType Context.noted
  split
  · exact element?_modifyElement_self found _
  · exact found

/-- Whether a name is that of a simple type which is a list or leads to one. -/
def Context.namesList (context : Context) (name : String) : Bool :=
  context.simpleTypes.contains name && context.isListType name

theorem Frame.namesList {change : Change} (frame : Frame change context next) (name : String) :
    next.namesList name = context.namesList name := by
  unfold Context.namesList Context.isListType
  rw [frame.simpleTypes, frame.options,
    Context.leadsToList_congr frame.namedSimpleType?]

theorem isList_noted (nominal : Nominal) (element : Element) :
    (context.noted nominal element).isList = (element.isList || context.namesList nominal.name) := by
  unfold Context.noted Context.namesList
  split
  · rename_i declared
    rw [declared, Bool.true_and]
  · rename_i undeclared
    rw [Bool.eq_false_iff.2 undeclared, Bool.false_and, Bool.or_false]

theorem attributes_noted (nominal : Nominal) (element : Element) :
    (context.noted nominal element).attributes = element.attributes := by
  unfold Context.noted
  split
  · exact attributes_addSimpleBase element nominal.name
  · rfl

/-- Whether the resolution of types passes over a declaration. -/
def Element.isPassedOver (element : Element) : Bool := element.kind = .schema || element.isWildcard

/-- Apart from the schema only wildcards are passed over. -/
theorem Element.isPassedOver_eq_isWildcard {element : Element} (notSchema : element.kind ≠ .schema) :
    element.isPassedOver = element.isWildcard := by
  unfold isPassedOver
  rw [decide_eq_false notSchema, Bool.false_or]

/-- The simple type for which a declaration stands by its nominal type. Without one it stands for
the string type. -/
def Context.declarationStandsFor? (context : Context) (nominals : Nominals) (id : NodeId) :
    Option String :=
  match nominals.find? id with
  | none => some context.vocabulary.stringType
  | some nominal => context.standsFor? nominals nominal.name

/-- Whether the nominal type of a declaration names a list. -/
def Context.declaresList (context : Context) (nominals : Nominals) (id : NodeId) : Bool :=
  match nominals.find? id with
  | none => false
  | some nominal => context.namesList nominal.name

/-- What the resolution of types makes of a declaration that it does not pass over. -/
structure Settled (context : Context) (nominals : Nominals) (id : NodeId) (before after : Element) :
    Prop where
  isList : after.isList = (before.isList || context.declaresList nominals id)
  isComplex : after.isComplex =
    (!before.attributes.isEmpty || (context.declarationStandsFor? nominals id).isNone)
  simple : ∀ type, context.declarationStandsFor? nominals id = some type → after.type? = some type
  structured : ∀ nominal, nominals.find? id = some nominal →
    context.declarationStandsFor? nominals id = none → after.type? = some nominal.name

theorem Frame.declarationStandsFor? {change : Change} (frame : Frame change context next)
    (nominals : Nominals) (id : NodeId) :
    next.declarationStandsFor? nominals id = context.declarationStandsFor? nominals id := by
  unfold Context.declarationStandsFor?
  rw [frame.vocabulary, funext (frame.standsFor? nominals)]

theorem Frame.declaresList {change : Change} (frame : Frame change context next)
    (nominals : Nominals) (id : NodeId) :
    next.declaresList nominals id = context.declaresList nominals id := by
  unfold Context.declaresList
  rw [funext frame.namesList]

theorem resolveElement_of_passedOver {id : NodeId} {element : Element}
    (found : context.element? id = some element) (passedOver : element.isPassedOver = true) :
    resolveElement nominals context id = .ok context := by
  have condition : (decide (element.kind = .schema) || element.isWildcard) = true := passedOver
  unfold resolveElement
  rw [found]
  exact if_pos condition

theorem passedOver_of_resolveElement {id : NodeId} {element : Element}
    (found : context.element? id = some element) (passedOver : element.isPassedOver = true)
    (resolved : resolveElement nominals context id = .ok next) :
    next.element? id = some element := by
  rw [resolveElement_of_passedOver found passedOver] at resolved
  cases resolved
  exact found

/-- The resolution of a declaration that is not passed over. -/
theorem resolveElement_of_typed {id : NodeId} {element : Element}
    (found : context.element? id = some element) (typed : element.isPassedOver = false) :
    resolveElement nominals context id =
      match nominals.find? id with
      | none => .ok (context.settle id ⟨⟨context.vocabulary.stringType, none⟩, false⟩)
      | some nominal =>
          match (context.noteSimpleType id nominal).resolve nominals element.name nominal with
          | .error error => .error ⟨error, context.noteSimpleType id nominal⟩
          | .ok resolution => .ok ((context.noteSimpleType id nominal).settle id resolution) := by
  have condition : ¬ (decide (element.kind = .schema) || element.isWildcard) = true := by
    have unfolded : (decide (element.kind = .schema) || element.isWildcard) = false := typed
    rw [unfolded]
    decide
  unfold resolveElement
  rw [found]
  exact if_neg condition

theorem settled_of_resolveElement {id : NodeId} {element : Element}
    (found : context.element? id = some element) (typed : element.isPassedOver = false)
    (resolved : resolveElement nominals context id = .ok next) :
    ∃ settled, next.element? id = some settled ∧ Settled context nominals id element settled := by
  rw [resolveElement_of_typed found typed] at resolved
  split at resolved
  · rename_i noNominal
    have noList : context.declaresList nominals id = false := by
      unfold Context.declaresList
      rw [noNominal]
    have stands : context.declarationStandsFor? nominals id =
        some context.vocabulary.stringType := by
      unfold Context.declarationStandsFor?
      rw [noNominal]
    cases resolved
    refine ⟨_, element?_settle found _, ⟨?_, ?_, ?_, ?_⟩⟩
    · rw [noList, Bool.or_false]
      rfl
    · rw [stands]
      rfl
    · intro expected same
      exact stands.symm.trans same
    · intro nominal hasNominal
      rw [noNominal] at hasNominal
      cases hasNominal
  · rename_i nominal hasNominal
    split at resolved
    · cases resolved
    · rename_i resolution resolvedNominal
      cases resolved
      have frame : Frame .any context (context.noteSimpleType id nominal) :=
        frame_noteSimpleType (by intros; trivial) context id nominal
      have hasList : context.declaresList nominals id = context.namesList nominal.name := by
        unfold Context.declaresList
        rw [hasNominal]
      obtain ⟨structured, name⟩ := standsFor?_of_resolve resolvedNominal
      rw [frame.standsFor?] at structured name
      have stands : context.declarationStandsFor? nominals id =
          context.standsFor? nominals nominal.name := by
        unfold Context.declarationStandsFor?
        rw [hasNominal]
      refine ⟨_, element?_settle (element?_noteSimpleType found nominal) resolution,
        ⟨?_, ?_, ?_, ?_⟩⟩
      · rw [hasList]
        exact isList_noted nominal element
      · rw [stands, ← structured, ← attributes_noted nominal element]
        rfl
      · intro expected same
        show some resolution.type.name = some expected
        rw [name, ← stands, same]
        rfl
      · intro other otherNominal standsForNothing
        cases hasNominal.symm.trans otherNominal
        show some resolution.type.name = some nominal.name
        rw [name, ← stands, standsForNothing]
        rfl

/-! ## The whole pass -/

/-- Every declaration below the root is settled by what its nominal type stands for. -/
theorem settled_of_resolveTypes {root id : NodeId} {element : Element}
    (resolved : resolveTypes root context = .ok next) (member : id ∈ context.walk root)
    (found : context.element? id = some element) :
    ∃ settled, next.element? id = some settled ∧
      (element.isPassedOver = true → settled = element) ∧
      (element.isPassedOver = false →
        Settled context (.ofContext context root) id element settled) := by
  have frame : ∀ current id, Frame .any current
      (endContext (resolveElement (.ofContext context root) current id)) :=
    frame_resolveElement (by intros; trivial) (by intros; trivial) _
  obtain ⟨before, after, frameBefore, same, visited, final⟩ :=
    exists_visit_of_foldlM resolveElement_elsewhere frame
      (Arena.nodup_walk context.arena root) member resolved
  rw [found] at same
  cases passedOver : element.isPassedOver with
  | true =>
      have present := passedOver_of_resolveElement same passedOver visited
      refine ⟨element, final.trans present, fun _ => rfl, fun contradiction => ?_⟩
      cases contradiction
  | false =>
      obtain ⟨settled, present, facts⟩ := settled_of_resolveElement same passedOver visited
      have stands := frameBefore.declarationStandsFor? (.ofContext context root) id
      refine ⟨settled, final.trans present, fun contradiction => ?_, fun _ => ⟨?_, ?_, ?_, ?_⟩⟩
      · cases contradiction
      · rw [facts.isList, frameBefore.declaresList]
      · rw [facts.isComplex, stands]
      · exact fun type same => facts.simple type (stands.trans same)
      · exact fun nominal hasNominal nothing =>
          facts.structured nominal hasNominal (stands.trans nothing)

/-- Under the strict policy the resolution of types goes through only where no nominal type falls
back. -/
theorem fallsBack_eq_false_of_resolveTypes {root id : NodeId} {element : Element}
    {nominal : Nominal} (strict : context.options.fallback = .strict)
    (resolved : resolveTypes root context = .ok next) (member : id ∈ context.walk root)
    (found : context.element? id = some element) (typed : element.isPassedOver = false)
    (hasNominal : (Nominals.ofContext context root).find? id = some nominal) :
    context.fallsBack (.ofContext context root) nominal = false := by
  have frame : ∀ current id, Frame .any current
      (endContext (resolveElement (.ofContext context root) current id)) :=
    frame_resolveElement (by intros; trivial) (by intros; trivial) _
  obtain ⟨before, after, frameBefore, same, visited, -⟩ :=
    exists_visit_of_foldlM resolveElement_elsewhere frame
      (Arena.nodup_walk context.arena root) member resolved
  rw [found] at same
  have noting : Frame .any before (before.noteSimpleType id nominal) :=
    frame_noteSimpleType (by intros; trivial) before id nominal
  have earlier : Frame .any context (before.noteSimpleType id nominal) := frameBefore.trans noting
  cases falls : context.fallsBack (.ofContext context root) nominal with
  | false => rfl
  | true =>
      have refusal : ∃ problem, (before.noteSimpleType id nominal).resolve
          (.ofContext context root) element.name nominal = .error (.semantic problem) :=
        resolve_strict (earlier.options ▸ strict) ((earlier.fallsBack _ nominal).trans falls)
      obtain ⟨problem, refused⟩ := refusal
      rw [resolveElement_of_typed same typed, hasNominal] at visited
      dsimp only at visited
      rw [refused] at visited
      cases visited

end XmlSchema
