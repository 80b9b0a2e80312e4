import XmlSchema.Proofs.FlatTrees
import XmlSchema.Proofs.Models

/-!
# References to elements

A declaration that refers to an element should appear as that element does: both complex or both of
one built-in type, both lists or both not. The element is resolved by its nominal type, and the
reference by following that nominal type as an alias. The two differ where the nominal type is in
no table and not built in, so that the element becomes a string and the reference a structure of
the name, `not_appearsAlike_unknownType`, and where the nominal type is a list, which an alias does
not pass on. `appearsAlike_iff` gives the exact condition.
-/

namespace XmlSchema

/-- What of its type shows in a declaration of a model. -/
structure Appearance where
  isComplex : Bool
  builtin? : Option Builtin
  isList : Bool
deriving DecidableEq

def Model.appearance (model : Model) (view : View) : Appearance :=
  ⟨view.element.isComplex, model.builtin? view, view.element.isList⟩

/-! ## What aliases stand for -/

namespace Context

variable (context : Context) (nominals : Nominals)

/-- The simple type for which an alias of a name stands. Where the name stands for a type that is
not built in, an alias of it stands for a structure. -/
def aliasStandsFor? (name : String) : Option String :=
  if context.simpleTypes.contains name then
    (some (context.simpleTarget name)).filter context.vocabulary.isBuiltin
  else if context.elementIndex.contains name then context.standsFor? nominals name
  else (some name).filter context.vocabulary.isBuiltin

/-- Whether a name that is not in both tables stands for the same as its aliases. -/
def IsTransparent (name : String) : Prop :=
  if context.simpleTypes.contains name then
    context.vocabulary.isBuiltin (context.simpleTarget name) = true
  else context.elementIndex.contains name = true ∨ context.vocabulary.isBuiltin name = true

end Context

section Aliases

variable {context : Context} {nominals : Nominals} {reference : String} {target : NodeId}
  {nominal : Nominal}

/-- A chain of aliases that has gone through the nominal type of a declaration ends alike, whether
or not it has been at the declaration itself. -/
theorem ending_aliasChain_append (indexed : context.elementIndex.find? reference = some target)
    (hasNominal : nominals.find? target = some nominal)
    (notSimple : context.simpleTypes.contains nominal.name = false)
    (inIndex : context.elementIndex.contains nominal.name = true) {visited : List String}
    (passed : nominal.name ∈ visited) (name : String) :
    (context.aliasChain nominals (visited ++ [reference]) name).ending =
      (context.aliasChain nominals visited name).ending := by
  rw [Context.aliasChain_step, Context.aliasChain_step context nominals visited]
  cases context.elementIndex.find? name with
  | none => rfl
  | some id =>
      dsimp only
      cases nominals.find? id with
      | none => rfl
      | some next =>
          dsimp only
          by_cases simple : context.simpleTypes.contains next.name
          · rw [if_pos simple, if_pos simple]
          · rw [if_neg simple, if_neg simple]
            by_cases outside : context.elementIndex.contains next.name = false
            · rw [if_pos outside, if_pos outside]
            · rw [if_neg outside, if_neg outside]
              by_cases again : next.name ∈ visited
              · rw [if_pos again, if_pos (List.mem_append_left _ again)]
              · rw [if_neg again]
                by_cases atReference : next.name = reference
                · -- From the declaration on, the chain is back where it has been.
                  have closed : next.name ∈ visited ++ [reference] := by
                    rw [atReference]
                    exact List.mem_append_right _ (List.mem_singleton_self _)
                  rw [if_pos closed, atReference, Context.aliasChain_step, indexed]
                  dsimp only
                  rw [hasNominal]
                  dsimp only
                  rw [if_neg (by rw [notSimple]; decide), if_neg (by rw [inIndex]; decide),
                    if_pos (List.mem_cons_of_mem _ passed)]
                · have new : next.name ∉ visited ++ [reference] := by
                    simp [again, atReference]
                  rw [if_neg new]
                  exact ending_aliasChain_append indexed hasNominal notSimple inIndex
                    (List.mem_cons_of_mem next.name passed) next.name
termination_by unvisited context.elementIndex.keys visited
decreasing_by exact unvisitedKeys_cons_lt (Bool.of_not_eq_false outside) again

/-- The name of a declaration stands for what an alias of its nominal type stands for. -/
theorem standsFor?_eq_aliasStandsFor?
    (indexed : context.elementIndex.find? reference = some target)
    (hasNominal : nominals.find? target = some nominal) :
    context.standsFor? nominals reference = context.aliasStandsFor? nominals nominal.name := by
  have inIndex : context.elementIndex.contains reference = true :=
    Table.contains_of_find? indexed
  unfold Context.aliasStandsFor?
  by_cases simple : context.simpleTypes.contains nominal.name
  · unfold Context.standsFor?
    rw [if_pos inIndex, if_pos simple, Context.aliasChain_step, indexed]
    dsimp only
    rw [hasNominal]
    dsimp only
    rw [if_pos simple]
    rfl
  · rw [if_neg simple]
    by_cases outside : context.elementIndex.contains nominal.name = false
    · unfold Context.standsFor?
      rw [if_pos inIndex, if_neg (by rw [outside]; decide), Context.aliasChain_step, indexed]
      dsimp only
      rw [hasNominal]
      dsimp only
      rw [if_neg simple, if_pos outside]
      rfl
    · have nextInIndex := Bool.of_not_eq_false outside
      rw [if_pos nextInIndex]
      by_cases itself : nominal.name = reference
      · rw [itself]
      · have new : nominal.name ∉ [reference] := by simpa using itself
        have ends : (context.aliasChain nominals [nominal.name, reference] nominal.name).ending =
            (context.aliasChain nominals [nominal.name] nominal.name).ending :=
          ending_aliasChain_append indexed hasNominal (Bool.eq_false_iff.2 simple) nextInIndex
            (List.mem_singleton_self _) nominal.name
        unfold Context.standsFor?
        rw [if_pos inIndex, if_pos nextInIndex, ← ends, Context.aliasChain_step context nominals
          [reference], indexed]
        dsimp only
        rw [hasNominal]
        dsimp only
        rw [if_neg simple, if_neg outside, if_neg new]

theorem isBuiltin_of_aliasStandsFor? {name type : String}
    (stands : context.aliasStandsFor? nominals name = some type) :
    context.vocabulary.isBuiltin type = true := by
  unfold Context.aliasStandsFor? at stands
  split at stands
  · exact (Option.filter_eq_some_iff.1 stands).2
  · split at stands
    · rename_i indexed
      unfold Context.standsFor? at stands
      rw [if_pos indexed] at stands
      split at stands
      · split at stands
        · rename_i builtin
          cases stands
          exact builtin
        · cases stands
      · split at stands
        · rename_i builtin
          cases stands
          exact builtin
        · cases stands
      · cases stands
    · exact (Option.filter_eq_some_iff.1 stands).2

/-- Names in one table at most stand for what their aliases stand for if they are transparent, and
only then. -/
theorem aliasStandsFor?_eq_standsFor?_iff {name : String}
    (once : (context.elementIndex.contains name && context.simpleTypes.contains name) = false) :
    context.aliasStandsFor? nominals name = context.standsFor? nominals name ↔
      context.IsTransparent name := by
  unfold Context.aliasStandsFor? Context.IsTransparent
  by_cases simple : context.simpleTypes.contains name
  · have unindexed : ¬ context.elementIndex.contains name = true := by
      intro indexed
      rw [indexed, simple] at once
      cases once
    unfold Context.standsFor?
    rw [if_pos simple, if_pos simple, if_neg unindexed, if_pos simple,
      Option.filter_eq_some_iff]
    exact ⟨fun both => both.2, fun builtin => ⟨rfl, builtin⟩⟩
  · rw [if_neg simple, if_neg simple]
    by_cases indexed : context.elementIndex.contains name
    · rw [if_pos indexed]
      exact ⟨fun _ => .inl indexed, fun _ => rfl⟩
    · unfold Context.standsFor?
      rw [if_neg indexed, if_neg indexed, if_neg simple]
      cases builtin : context.vocabulary.isBuiltin name with
      | true =>
          rw [if_pos rfl]
          exact ⟨fun _ => .inr rfl, fun _ => Option.filter_eq_some_iff.2 ⟨rfl, builtin⟩⟩
      | false =>
          have nothing : (some name).filter context.vocabulary.isBuiltin = none := by
            simp [builtin]
          rw [nothing]
          constructor
          · intro same
            cases same
          · rintro (contradiction | contradiction)
            · exact absurd contradiction indexed
            · cases contradiction

end Aliases

/-! ## What the survey foresees -/

namespace Context

variable (context : Context) (nominals : Nominals)

/-- The appearance of a declaration that stands for a simple type or else for a structure. -/
def appearanceFor (type? : Option String) (isList : Bool) : Appearance :=
  ⟨type?.isNone, type?.bind context.vocabulary.builtin?, isList⟩

/-- The appearance of a declaration that the resolution of types passes over. -/
def appearanceAsWritten (element : Element) : Appearance :=
  ⟨false, element.type?.bind context.vocabulary.builtin?, false⟩

/-- How a declaration with a nominal type will appear. -/
def foreseen (element : Element) (nominal : Nominal) : Appearance :=
  if element.isPassedOver then context.appearanceAsWritten element
  else context.appearanceFor
    (if element.attributes.isEmpty then context.standsFor? nominals nominal.name else none)
    (context.namesList nominal.name)

/-- How a reference without attributes to a declaration with a nominal type will appear. -/
def foreseenReference (element : Element) (reference : String) (nominal : Nominal) : Appearance :=
  if element.isPassedOver then context.appearanceAsWritten element
  else context.appearanceFor (context.aliasStandsFor? nominals nominal.name)
    (context.namesList reference)

variable {context nominals}

theorem appearanceFor_inj {left right : Option String} {leftList rightList : Bool}
    (builtin : ∀ type, left = some type → context.vocabulary.isBuiltin type = true) :
    context.appearanceFor left leftList = context.appearanceFor right rightList ↔
      leftList = rightList ∧ left = right := by
  constructor
  · intro same
    unfold appearanceFor at same
    simp only [Appearance.mk.injEq] at same
    obtain ⟨sameKind, sameType, sameList⟩ := same
    refine ⟨sameList, ?_⟩
    cases left with
    | none => exact (Option.isNone_iff_eq_none.1 sameKind.symm).symm
    | some type =>
        obtain ⟨known, isKnown⟩ := Option.isSome_iff_exists.1 (builtin type rfl)
        cases right with
        | none => cases sameKind
        | some other =>
            have otherKnown : context.vocabulary.builtin? other = some known :=
              sameType.symm.trans isKnown
            rw [Vocabulary.builtin?_eq_some_iff.1 isKnown,
              Vocabulary.builtin?_eq_some_iff.1 otherKnown]
  · rintro ⟨rfl, rfl⟩
    rfl

end Context

section Foreseen

variable {options : Options} {document : Bytes} {root id : NodeId}
  {surveyed typed completed separated attributed mixed final : Context}
  (stages : Stages root surveyed typed completed separated attributed mixed final)
  {element before : Element} {nominal : Nominal}

include stages in
/-- Declarations appear as foreseen. -/
theorem Stages.appearance (sound : surveyed.Sound) (reached : final.arena.Reaches root id)
    (found : final.element? id = some element) (present : surveyed.element? id = some before)
    (hasNominal : (Nominals.ofContext surveyed root).find? id = some nominal) :
    (Model.mk final root).appearance ⟨id, element⟩ =
      surveyed.foreseen (.ofContext surveyed root) before nominal := by
  obtain ⟨other, otherPresent, -, -, passedOver, settled⟩ := stages.settled reached found
  cases present.symm.trans otherPresent
  have follows := sound.followsTag present
  have vocabulary : final.vocabulary = surveyed.vocabulary := stages.frame_shape.vocabulary
  unfold Model.appearance Model.builtin? Context.foreseen
  dsimp only
  rw [vocabulary]
  cases skipped : before.isPassedOver with
  | true =>
      have verdict := passedOver skipped
      have sameType : element.type? = before.type? := congrArg Prod.fst verdict
      have sameFlag : element.isComplex = before.isComplex := congrArg Prod.snd verdict
      have simple : element.isComplex = false := sameFlag.trans follows.unresolved
      have single : element.isList = false :=
        (stages.isList_passedOver reached found present skipped).trans follows.single
      rw [simple, single, sameType]
      rfl
  | false =>
      obtain ⟨isList, isComplex, hasType, -⟩ := settled skipped
      have stands : surveyed.declarationStandsFor? (.ofContext surveyed root) id =
          surveyed.standsFor? (.ofContext surveyed root) nominal.name := by
        unfold Context.declarationStandsFor?
        rw [hasNominal]
      have declares : surveyed.declaresList (.ofContext surveyed root) id =
          surveyed.namesList nominal.name := by
        unfold Context.declaresList
        rw [hasNominal]
      rw [stands] at isComplex hasType
      rw [follows.single, declares, Bool.false_or] at isList
      rw [isComplex, isList]
      cases empty : before.attributes.isEmpty with
      | false => rfl
      | true =>
          cases meaning : surveyed.standsFor? (.ofContext surveyed root) nominal.name with
          | none => rfl
          | some type =>
              rw [hasType type meaning]
              rfl

end Foreseen

/-! ## References and what they refer to -/

/-- A declaration of a model without attributes had none at the survey. -/
theorem exists_survey_of_isEmpty {options : Options} {document : Bytes} {model : Model}
    {surveyed : Context} {id : NodeId} {element : Element}
    (compiled : compileBytes options document = .ok model)
    (found : survey options document = .ok (surveyed, model.root))
    (reached : model.context.arena.Reaches model.root id)
    (present : model.context.element? id = some element)
    (empty : element.attributes.isEmpty = true) :
    ∃ before, surveyed.element? id = some before ∧ before.attributes.isEmpty = true := by
  obtain ⟨other, typed, completed, separated, attributed, mixed, again, stages⟩ :=
    exists_stages compiled
  cases found.symm.trans again
  obtain ⟨before, presentBefore, -, growing, -⟩ := stages.settled reached present
  exact ⟨before, presentBefore, growing empty⟩

/-- A declaration that refers to an indexed one, and has neither a type nor attributes of its own,
appears as that one exactly when the survey foresees the same for both. Where neither is passed
over, and the target has no attributes and a nominal type in one table at most, this means that the
nominal type is transparent and names a list only if the reference does. -/
theorem appearsAlike_iff {options : Options} {document : Bytes} {model : Model}
    (compiled : compileBytes options document = .ok model) :
    ∃ surveyed, survey options document = .ok (surveyed, model.root) ∧
      ∀ id element before reference target, model.context.arena.Reaches model.root id →
        model.context.element? id = some element → element.reference? = some reference →
        element.writtenType? = none → surveyed.element? id = some before →
        before.attributes.isEmpty = true →
        model.context.elementIndex.find? reference = some target →
        ∃ targetElement targetBefore nominal,
          model.context.element? target = some targetElement ∧
          surveyed.element? target = some targetBefore ∧
          (Nominals.ofContext surveyed model.root).find? target = some nominal ∧
          (model.appearance ⟨id, element⟩ = model.appearance ⟨target, targetElement⟩ ↔
            surveyed.foreseenReference (.ofContext surveyed model.root) before reference nominal =
              surveyed.foreseen (.ofContext surveyed model.root) targetBefore nominal) ∧
          (before.isPassedOver = false → targetBefore.isPassedOver = false →
            targetBefore.attributes.isEmpty = true →
            (surveyed.elementIndex.contains nominal.name &&
              surveyed.simpleTypes.contains nominal.name) = false →
            (model.appearance ⟨id, element⟩ = model.appearance ⟨target, targetElement⟩ ↔
              surveyed.namesList reference = surveyed.namesList nominal.name ∧
                surveyed.IsTransparent nominal.name)) := by
  obtain ⟨surveyed, typed, completed, separated, attributed, mixed, found, stages⟩ :=
    exists_stages compiled
  refine ⟨surveyed, found, ?_⟩
  intro id element before reference target reached present refers untyped presentBefore own indexed
  have sound := sound_survey found
  have frame := stages.frame_shape
  -- The reference as it was at the survey.
  have shape : element.shape = before.shape := frame.holds presentBefore present
  have untypedBefore : before.writtenType? = none := (congrArg (·.2.1) shape).symm.trans untyped
  have sameReference : element.reference? = before.reference? :=
    stages.frame_reference.holds presentBefore present
  have refersBefore : before.reference? = some reference := sameReference.symm.trans refers
  have nominalBefore := nominal_of_reference (stages.mem_walk_of_reaches reached present)
    presentBefore untypedBefore refersBefore
  -- The declaration to which it refers.
  rw [frame.elementIndex] at indexed
  obtain ⟨member, named, targetBefore, targetPresent, -, isNamed⟩ := indexed_survey found indexed
  obtain ⟨nominal, hasNominal⟩ :=
    exists_nominal_of_name member targetPresent (isNamed.symm ▸ named)
  obtain ⟨targetElement, targetFinal, -⟩ := frame.of_element? targetPresent
  have targetReached : model.context.arena.Reaches model.root target := by
    rw [← stages.walk_final] at member
    exact (Arena.mem_walk_iff.1 member).1
  -- Both appear as foreseen.
  have referenceAppears : model.appearance ⟨id, element⟩ =
      surveyed.foreseenReference (.ofContext surveyed model.root) before reference nominal := by
    have foreseen := stages.appearance sound reached present presentBefore nominalBefore
    unfold Context.foreseen at foreseen
    unfold Context.foreseenReference
    rw [own, if_pos rfl, standsFor?_eq_aliasStandsFor? indexed hasNominal] at foreseen
    exact foreseen
  have targetAppears : model.appearance ⟨target, targetElement⟩ =
      surveyed.foreseen (.ofContext surveyed model.root) targetBefore nominal :=
    stages.appearance sound targetReached targetFinal targetPresent hasNominal
  refine ⟨targetElement, targetBefore, nominal, targetFinal, targetPresent, hasNominal, ?_, ?_⟩
  · rw [referenceAppears, targetAppears]
  · intro typedReference typedTarget noAttributes once
    rw [referenceAppears, targetAppears]
    unfold Context.foreseenReference Context.foreseen
    rw [if_neg (by rw [typedReference]; decide), if_neg (by rw [typedTarget]; decide),
      if_pos noAttributes, Context.appearanceFor_inj fun type => isBuiltin_of_aliasStandsFor?,
      aliasStandsFor?_eq_standsFor?_iff once]

/-- An element of unknown type and a reference to it. -/
def unknownTypeReferenceSchema : Bytes :=
  schemaDocument [
    "<s:element name='x' type='Nowhere'/>",
    "<s:complexType name='T'><s:sequence><s:element ref='x'/></s:sequence>",
    "</s:complexType>"]

/-- A reference to an element of unknown type is complex, while the element is a string. -/
theorem not_appearsAlike_unknownType :
    ∃ model id element target targetElement,
      compileBytes .standard unknownTypeReferenceSchema = .ok model ∧
      model.context.arena.Reaches model.root id ∧ model.context.element? id = some element ∧
      element.kind = .element ∧ element.reference? = some "x" ∧ element.writtenType? = none ∧
      element.attributes.isEmpty = true ∧
      model.context.elementIndex.find? "x" = some target ∧
      model.context.element? target = some targetElement ∧
      model.appearance ⟨id, element⟩ = ⟨true, none, false⟩ ∧
      model.appearance ⟨target, targetElement⟩ = ⟨false, some .string, false⟩ := by
  have computed : compilesFlat .standard unknownTypeReferenceSchema
      (Model.anyElement fun model element =>
        decide (element.kind = .element ∧ element.reference? = some "x" ∧
          element.writtenType? = none ∧ element.attributes.isEmpty = true ∧
          model.appearance ⟨⟨0⟩, element⟩ = ⟨true, none, false⟩ ∧
          (model.element? "x").map model.appearance = some ⟨false, some .string, false⟩)) =
      true := by decide +kernel
  obtain ⟨model, id, element, compiled, reached, found, checked⟩ :=
    exists_element_of_compilesFlat computed
  obtain ⟨isElement, refers, untyped, empty, appears, targetAppears⟩ := of_decide_eq_true checked
  obtain ⟨⟨target, targetElement⟩, targetView, targetAppears⟩ :=
    Option.map_eq_some_iff.1 targetAppears
  obtain ⟨indexed, viewed, targetFound⟩ := Option.bind_eq_some_iff.1 targetView
  obtain ⟨same, present, isTarget⟩ := Option.map_eq_some_iff.1 targetFound
  cases isTarget
  exact ⟨model, id, element, target, targetElement, compiled, reached, found, isElement, refers,
    untyped, empty, viewed, present, appears, targetAppears⟩

/-- An element of a built-in type and a reference to it. -/
def integerReferenceSchema : Bytes :=
  schemaDocument [
    "<s:element name='x' type='s:int'/>",
    "<s:complexType name='T'><s:sequence><s:element ref='x'/></s:sequence>",
    "</s:complexType>"]

/-- A reference to an element of a built-in type appears as the element does. -/
theorem appearsAlike_integer :
    ∃ (model : Model) (surveyed : Context) (id : NodeId) (element before : Element)
      (target : NodeId) (targetElement targetBefore : Element) (nominal : Nominal),
      compileBytes .standard integerReferenceSchema = .ok model ∧
      survey .standard integerReferenceSchema = .ok (surveyed, model.root) ∧
      model.context.arena.Reaches model.root id ∧ model.context.element? id = some element ∧
      element.reference? = some "x" ∧ element.writtenType? = none ∧
      surveyed.element? id = some before ∧ before.attributes.isEmpty = true ∧
      model.context.elementIndex.find? "x" = some target ∧
      model.context.element? target = some targetElement ∧
      surveyed.element? target = some targetBefore ∧
      surveyed.foreseenReference (.ofContext surveyed model.root) before "x" nominal =
        surveyed.foreseen (.ofContext surveyed model.root) targetBefore nominal ∧
      model.appearance ⟨id, element⟩ = ⟨false, some .int, false⟩ ∧
      model.appearance ⟨target, targetElement⟩ = ⟨false, some .int, false⟩ := by
  have computed : compilesFlat .standard integerReferenceSchema
      (Model.anyElement fun model element =>
        decide (element.reference? = some "x" ∧ element.writtenType? = none ∧
          element.attributes.isEmpty = true ∧
          model.appearance ⟨⟨0⟩, element⟩ = ⟨false, some .int, false⟩ ∧
          (model.element? "x").map model.appearance = some ⟨false, some .int, false⟩)) =
      true := by decide +kernel
  obtain ⟨model, id, element, compiled, reached, found, checked⟩ :=
    exists_element_of_compilesFlat computed
  obtain ⟨refers, untyped, empty, appears, targetAppears⟩ := of_decide_eq_true checked
  obtain ⟨⟨target, viewedElement⟩, targetView, targetAppears⟩ :=
    Option.map_eq_some_iff.1 targetAppears
  obtain ⟨indexed, viewed, targetFound⟩ := Option.bind_eq_some_iff.1 targetView
  obtain ⟨same, present, isTarget⟩ := Option.map_eq_some_iff.1 targetFound
  cases isTarget
  obtain ⟨surveyed, surveys, all⟩ := appearsAlike_iff compiled
  obtain ⟨before, presentBefore, own⟩ := exists_survey_of_isEmpty compiled surveys reached found
    empty
  obtain ⟨targetElement, targetBefore, nominal, targetPresent, targetPresentBefore, -, iff, -⟩ :=
    all id element before "x" target reached found refers untyped presentBefore own viewed
  cases present.symm.trans targetPresent
  exact ⟨model, surveyed, id, element, before, target, _, targetBefore, nominal,
    compiled, surveys, reached, found, refers, untyped, presentBefore, own, viewed, targetPresent,
    targetPresentBefore, iff.1 (appears.trans targetAppears.symm), appears, targetAppears⟩

end XmlSchema
