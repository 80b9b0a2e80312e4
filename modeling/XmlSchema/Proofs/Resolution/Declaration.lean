import XmlSchema.Proofs.Resolution.Facets

/-!
# The resolution of one declaration

What a declaration becomes is what is noted of its nominal type, settled by what it is found to be:
`resolveElement_eq_ok`. Whether it is found to be anything at all, the tables, the nominal types and
the options decide, `Frame.exists_resolve`, and so they decide everything that is found but facets.
-/

namespace XmlSchema

variable {context before after next : Context} {nominals : Nominals} {id : NodeId}

/-! ## What is decided by the tables -/

theorem facetsOf_of_element? {element : Element} (found : context.element? id = some element) :
    context.facetsOf id = element.facets := by
  unfold Context.element? Arena.element? at found
  obtain ⟨node, present, declared⟩ := Option.bind_eq_some_iff.1 found
  have located : context.node? id = some node := present
  unfold Context.facetsOf
  rw [located]
  cases node with
  | declaration other =>
      cases declared
      rfl
  | simple type => cases declared

/-- Facets of a handle that is none of a declaration are those of a simple type. -/
theorem facetsOf_of_absent (absent : context.element? id = none) :
    context.facetsOf id =
      ((context.arena.simpleType? id).map SimpleType.facets).getD .empty := by
  unfold Context.element? Arena.element? at absent
  unfold Context.facetsOf Arena.simpleType?
  have located : context.node? id = context.arena.node? id := rfl
  rw [located]
  cases present : context.arena.node? id with
  | none => rfl
  | some node =>
      rw [present] at absent
      cases node with
      | declaration element => cases absent
      | simple type => rfl

namespace Frame

variable {change : Change} (frame : Frame change before after)

include frame in
theorem facetsOf_of_same (same : after.element? id = before.element? id) :
    after.facetsOf id = before.facetsOf id := by
  cases found : before.element? id with
  | none => rw [facetsOf_of_absent (same.trans found), facetsOf_of_absent found, frame.simpleType?]
  | some element => rw [facetsOf_of_element? (same.trans found), facetsOf_of_element? found]

include frame in
theorem simpleFacets? (start : String) : after.simpleFacets? start = before.simpleFacets? start := by
  unfold Context.simpleFacets?
  rw [frame.simpleChain, frame.options]

include frame in
theorem noted (nominal : Nominal) : after.noted nominal = before.noted nominal := by
  funext element
  unfold Context.noted Context.isListType
  rw [frame.simpleTypes, frame.options, Context.leadsToList_congr frame.namedSimpleType?]

include frame in
theorem fallBack (node : String) (cause : SemanticCause) :
    after.fallBack node cause = before.fallBack node cause := by
  unfold Context.fallBack
  rw [frame.options, frame.vocabulary]

include frame in
theorem resolveSimple (node start : String) :
    after.resolveSimple node start = before.resolveSimple node start := by
  have settled : ∀ ending,
      after.settleChain node start ending = before.settleChain node start ending := by
    intro ending
    unfold Context.settleChain
    rw [frame.vocabulary, funext₂ frame.fallBack]
  unfold Context.resolveSimple
  rw [frame.simpleChain, frame.options, funext settled]

include frame in
/-- A chain of aliases is refused or not whatever the facets of declarations. -/
theorem exists_resolveAlias {node name : String} {resolution : Resolution}
    (resolved : after.resolveAlias nominals node name = .ok resolution) :
    ∃ resolution, before.resolveAlias nominals node name = .ok resolution := by
  unfold Context.resolveAlias at resolved ⊢
  dsimp only at resolved ⊢
  rw [(Context.aliasChain_congr frame.elementIndex frame.simpleTypes nominals [name] name).1]
    at resolved
  cases ending : (before.aliasChain nominals [name] name).ending with
  | simple simple =>
      rw [ending] at resolved
      obtain ⟨type, found, -⟩ := map_eq_ok_iff.1 resolved
      rw [frame.resolveSimple] at found
      exact ⟨_, map_eq_ok_iff.2 ⟨type, found, rfl⟩⟩
  | outside outside => exact ⟨_, rfl⟩
  | structured => exact ⟨_, rfl⟩

include frame in
/-- A nominal type is refused or not whatever the facets of declarations. -/
theorem exists_resolve {node : String} {nominal : Nominal} {resolution : Resolution}
    (resolved : after.resolve nominals node nominal = .ok resolution) :
    ∃ resolution, before.resolve nominals node nominal = .ok resolution := by
  unfold Context.resolve at resolved ⊢
  dsimp only at resolved ⊢
  rw [frame.elementIndex, frame.simpleTypes, frame.vocabulary] at resolved
  by_cases indexed : before.elementIndex.contains nominal.name
  · rw [if_pos indexed] at resolved ⊢
    exact frame.exists_resolveAlias resolved
  · rw [if_neg indexed] at resolved ⊢
    by_cases simple : before.simpleTypes.contains nominal.name
    · rw [if_pos simple] at resolved ⊢
      rw [frame.resolveSimple] at resolved
      obtain ⟨type, found, -⟩ := map_eq_ok_iff.1 resolved
      exact ⟨_, map_eq_ok_iff.2 ⟨type, found, rfl⟩⟩
    · rw [if_neg simple] at resolved ⊢
      rw [frame.fallBack] at resolved
      exact ⟨resolution, resolved⟩

end Frame

/-! ## One declaration -/

namespace Context

section Definitions

variable (context : Context) (nominals : Nominals) (id : NodeId) (element : Element)

/-- What a declaration is found to be. One without a nominal type is a string. -/
def resolutionOf : Except Error Resolution :=
  match nominals.find? id with
  | none => .ok ⟨⟨context.vocabulary.stringType, none⟩, false⟩
  | some nominal => context.resolve nominals element.name nominal

/-- The declaration with what is noted of its nominal type. -/
def notedOf : Element :=
  match nominals.find? id with
  | none => element
  | some nominal => context.noted nominal element

end Definitions

end Context

theorem facets_noted (nominal : Nominal) (element : Element) :
    (context.noted nominal element).facets = element.facets := by
  unfold Context.noted
  split
  · exact part_addSimpleBase Element.facets (fun _ _ => rfl) element nominal.name
  · rfl

theorem facets_notedOf (element : Element) :
    (context.notedOf nominals id element).facets = element.facets := by
  unfold Context.notedOf
  split
  · rfl
  · exact facets_noted _ element

/-- What is found does not look at what was noted. -/
theorem resolve_noteSimpleType {element : Element} (found : context.element? id = some element)
    (node : String) (nominal other : Nominal) :
    (context.noteSimpleType id nominal).resolve nominals node other =
      context.resolve nominals node other := by
  have frame : Frame .any context (context.noteSimpleType id nominal) :=
    frame_noteSimpleType (by intros; trivial) context id nominal
  have facets : ∀ other,
      (context.noteSimpleType id nominal).facetsOf other = context.facetsOf other := by
    intro other
    by_cases same : other = id
    · subst same
      rw [facetsOf_of_element? (element?_noteSimpleType found nominal),
        facetsOf_of_element? found, facets_noted]
    · exact frame.facetsOf_of_same (noteSimpleType_elsewhere same nominal)
  unfold Context.resolve Context.resolveAlias
  rw [frame.elementIndex, frame.simpleTypes, frame.vocabulary, funext₂ frame.resolveSimple,
    funext₂ frame.fallBack,
    (Context.aliasChain_congr frame.elementIndex frame.simpleTypes nominals _ _).2 facets]

section Declaration

variable {element : Element} (found : context.element? id = some element)
  (typed : element.isPassedOver = false)

include found typed in
/-- A declaration that is not passed over becomes what it is found to be. -/
theorem resolveElement_eq_ok (resolved : resolveElement nominals context id = .ok next) :
    ∃ resolution, context.resolutionOf nominals id element = .ok resolution ∧
      next.element? id = some ((context.notedOf nominals id element).settledBy resolution) := by
  rw [resolveElement_of_typed found typed] at resolved
  unfold Context.resolutionOf Context.notedOf
  cases hasNominal : nominals.find? id with
  | none =>
      rw [hasNominal] at resolved
      cases resolved
      exact ⟨_, rfl, element?_settle found _⟩
  | some nominal =>
      rw [hasNominal] at resolved
      dsimp only at resolved
      rw [resolve_noteSimpleType found] at resolved
      split at resolved
      · cases resolved
      · rename_i resolution resolvedNominal
        cases resolved
        exact ⟨resolution, resolvedNominal,
          element?_settle (element?_noteSimpleType found nominal) resolution⟩

include found typed in
theorem exists_resolveElement {resolution : Resolution}
    (resolves : context.resolutionOf nominals id element = .ok resolution) :
    ∃ next, resolveElement nominals context id = .ok next ∧
      next.element? id = some ((context.notedOf nominals id element).settledBy resolution) := by
  have completed : ∃ next, resolveElement nominals context id = .ok next := by
    rw [resolveElement_of_typed found typed]
    unfold Context.resolutionOf at resolves
    split
    · exact ⟨_, rfl⟩
    · rename_i nominal hasNominal
      rw [hasNominal] at resolves
      have resolvesToo : context.resolve nominals element.name nominal = .ok resolution := resolves
      rw [resolve_noteSimpleType found, resolvesToo]
      exact ⟨_, rfl⟩
  obtain ⟨next, resolved⟩ := completed
  obtain ⟨other, again, present⟩ := resolveElement_eq_ok found typed resolved
  cases resolves.symm.trans again
  exact ⟨next, resolved, present⟩

end Declaration

/-- A resolution that goes through changes nothing, or settles a declaration that is not passed
over. -/
theorem cases_of_resolveElement (resolved : resolveElement nominals context id = .ok next) :
    next = context ∨ ∃ element resolution, context.element? id = some element ∧
      context.resolutionOf nominals id element = .ok resolution ∧
      next.element? id = some ((context.notedOf nominals id element).settledBy resolution) := by
  cases found : context.element? id with
  | none =>
      unfold resolveElement at resolved
      rw [found] at resolved
      cases resolved
      exact .inl rfl
  | some element =>
      cases passedOver : element.isPassedOver with
      | true =>
          rw [resolveElement_of_passedOver found passedOver] at resolved
          exact .inl (Except.ok.inj resolved).symm
      | false =>
          obtain ⟨resolution, resolves, present⟩ := resolveElement_eq_ok found passedOver resolved
          exact .inr ⟨element, resolution, rfl, resolves, present⟩

theorem facets?_of_resolutionOf {element : Element} {resolution : Resolution}
    (resolves : context.resolutionOf nominals id element = .ok resolution) :
    resolution.type.facets? = (nominals.find? id).bind (context.carriedFacets? nominals) := by
  unfold Context.resolutionOf at resolves
  split at resolves
  · rename_i noNominal
    cases resolves
    rw [noNominal]
    rfl
  · rename_i nominal hasNominal
    rw [hasNominal]
    exact Context.facets?_of_resolve resolves

namespace Frame

variable {change : Change} (frame : Frame change before after)

include frame in
theorem notedOf (element : Element) :
    after.notedOf nominals id element = before.notedOf nominals id element := by
  unfold Context.notedOf
  rw [funext frame.noted]

include frame in
/-- What a declaration is found to be, it is found to be in all contexts with the same tables and
simple types, up to facets. -/
theorem exists_resolutionOf {element : Element} {resolution : Resolution}
    (resolves : after.resolutionOf nominals id element = .ok resolution) :
    ∃ earlier, before.resolutionOf nominals id element = .ok earlier ∧
      resolution =
        ⟨⟨earlier.type.name, resolution.type.facets?⟩, earlier.isStructured⟩ := by
  unfold Context.resolutionOf at resolves ⊢
  split at resolves
  · cases resolves
    refine ⟨_, rfl, ?_⟩
    rw [frame.vocabulary]
  · rename_i nominal _
    obtain ⟨earlier, resolvesBefore⟩ := frame.exists_resolve resolves
    obtain ⟨structured, name⟩ := standsFor?_of_resolve resolves
    obtain ⟨structuredBefore, nameBefore⟩ := standsFor?_of_resolve resolvesBefore
    rw [frame.standsFor?, ← structuredBefore] at structured
    rw [frame.standsFor?, ← nameBefore] at name
    refine ⟨earlier, resolvesBefore, ?_⟩
    rw [← structured, ← name]

end Frame

end XmlSchema
