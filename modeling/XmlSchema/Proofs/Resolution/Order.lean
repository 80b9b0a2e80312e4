import XmlSchema.Proofs.FlatTrees
import XmlSchema.Proofs.Resolution.Declaration

/-!
# The order of resolution

What a declaration is found to be does not depend on the declarations resolved before it:
`resolvedAlone_of_resolveTypes`. Types, flags and simple bases come from nominal types and tables,
which the pass does not write. Facets are written, and read along the ways of other declarations;
but what a declaration adopts is what the way through it would have found behind it, so every way
still finds the same: `Adopts.exists_carries_iff`. This needs that no name in the index is that of a
simple type as well, since a chain of aliases looks for such a name among the simple types first,
and the resolution of a nominal type does not.
-/

namespace XmlSchema

variable {context before after next : Context} {nominals : Nominals} {id : NodeId}

theorem Facets.eq_empty_of_isEmpty {facets : Facets} (bare : facets.isEmpty = true) :
    facets = .empty := by
  obtain ⟨enumeration, range?⟩ := facets
  simp only [Facets.isEmpty, Bool.and_eq_true, List.isEmpty_iff, Option.isNone_iff_eq_none] at bare
  rw [bare.1, bare.2]
  rfl

theorem Facets.orElse_of_isEmpty {facets : Facets} (bare : facets.isEmpty = true)
    (others : Facets) : facets.orElse others = others := if_pos bare

theorem Facets.orElse_of_present {facets : Facets} (present : facets.isEmpty = false)
    (others : Facets) : facets.orElse others = facets := by
  unfold orElse
  rw [present]
  rfl

theorem Facets.orElse_getD (facets : Facets) (others? : Option Facets) :
    facets.orElse (others?.getD facets) = facets.orElse (others?.getD .empty) := by
  cases bare : facets.isEmpty with
  | true => rw [eq_empty_of_isEmpty bare]
  | false => rw [orElse_of_present bare, orElse_of_present bare]

theorem Facets.orElse_orElse (facets others : Facets) :
    (facets.orElse others).orElse others = facets.orElse others := by
  cases bare : facets.isEmpty with
  | true =>
      rw [orElse_of_isEmpty bare]
      unfold orElse
      split <;> rfl
  | false => rw [orElse_of_present bare, orElse_of_present bare]

/-! ## What declarations adopt -/

/-- Whether no name in the index is that of a simple type as well. -/
def Context.TellsApart (context : Context) : Prop :=
  ∀ name, context.elementIndex.contains name = true → context.simpleTypes.contains name = false

/-- The facets that a declaration has in the end, if it is resolved in a context. -/
def Context.adopted (context : Context) (nominals : Nominals) (id : NodeId) : Facets :=
  (context.facetsOf id).orElse
    (((nominals.find? id).bind (context.carriedFacets? nominals)).getD .empty)

/-- A context in which some nodes have adopted facets since. -/
structure Adopts (nominals : Nominals) (before after : Context) : Prop where
  frame : Frame .any before after
  facets : ∀ id, after.facetsOf id = before.facetsOf id ∨
    after.facetsOf id = before.adopted nominals id

namespace Adopts

theorem refl (nominals : Nominals) (context : Context) : Adopts nominals context context where
  frame := .refl .any context
  facets _ := .inl rfl

/-- Facets stay. -/
theorem facetsOf_of_present (adopts : Adopts nominals before after)
    (present : (before.facetsOf id).isEmpty = false) :
    after.facetsOf id = before.facetsOf id := by
  rcases adopts.facets id with kept | adopted
  · exact kept
  · exact adopted.trans (Facets.orElse_of_present present _)

/-- A node with facets either had them or has adopted what its nominal type carries. -/
theorem cases_of_present (adopts : Adopts nominals before after)
    (present : (after.facetsOf id).isEmpty = false) :
    after.facetsOf id = before.facetsOf id ∨
      (before.facetsOf id).isEmpty = true ∧ ∃ nominal, nominals.find? id = some nominal ∧
        before.carriedFacets? nominals nominal = some (after.facetsOf id) := by
  cases bare : (before.facetsOf id).isEmpty with
  | false => exact .inl (adopts.facetsOf_of_present bare)
  | true =>
      rcases adopts.facets id with kept | adopted
      · exact .inl kept
      · right
        refine ⟨rfl, ?_⟩
        unfold Context.adopted at adopted
        rw [Facets.orElse_of_isEmpty bare] at adopted
        cases leads : nominals.find? id with
        | none =>
            rw [adopted, leads] at present
            cases present
        | some nominal =>
            refine ⟨nominal, rfl, ?_⟩
            rw [leads] at adopted
            have given : after.facetsOf id =
              (before.carriedFacets? nominals nominal).getD .empty := adopted
            cases carried : before.carriedFacets? nominals nominal with
            | none =>
                rw [given, carried] at present
                cases present
            | some facets =>
                rw [given, carried]
                rfl

/-- A node without facets had none, and if it has adopted any, these are carried by its nominal
type. -/
theorem cases_of_bare (adopts : Adopts nominals before after) {nominal : Nominal} {facets : Facets}
    (bare : (before.facetsOf id).isEmpty = true) (leads : nominals.find? id = some nominal)
    (carried : before.carriedFacets? nominals nominal = some facets) :
    (after.facetsOf id).isEmpty = true ∨ after.facetsOf id = facets := by
  rcases adopts.facets id with kept | adopted
  · left
    rw [kept]
    exact bare
  · right
    unfold Context.adopted at adopted
    rw [Facets.orElse_of_isEmpty bare, leads] at adopted
    rw [adopted]
    show (before.carriedFacets? nominals nominal).getD .empty = facets
    rw [carried]
    rfl

theorem bare_of_after (adopts : Adopts nominals before after)
    (bare : (after.facetsOf id).isEmpty = true) : (before.facetsOf id).isEmpty = true := by
  cases present : (before.facetsOf id).isEmpty with
  | true => rfl
  | false =>
      rw [adopts.facetsOf_of_present present, present] at bare
      cases bare

section Carried

variable (adopts : Adopts nominals before after) (apart : before.TellsApart) {name : String}
  {facets : Facets} {steps : Nat}

include adopts in
theorem entered_iff : after.elementIndex.find? name = some id ↔
    before.elementIndex.find? name = some id := by
  rw [adopts.frame.elementIndex]

include adopts apart in
/-- What a way carried it still carries, perhaps from a declaration that has adopted it. -/
theorem exists_carries_after (carries : before.Carries nominals facets steps name) :
    ∃ more, after.Carries nominals facets more name := by
  induction carries with
  | own entered present =>
      have kept := adopts.facetsOf_of_present present
      rw [← kept] at present ⊢
      exact ⟨0, .own (adopts.entered_iff.2 entered) present⟩
  | @simple name id nominal facets entered bare leads typed found =>
      have unentered : before.elementIndex.contains nominal.name = false := by
        cases indexed : before.elementIndex.contains nominal.name with
        | false => rfl
        | true =>
            rw [apart nominal.name indexed] at typed
            cases typed
      have carried : before.carriedFacets? nominals nominal = some facets :=
        Context.carriedFacets?_eq_some_iff.2 (.inr ⟨unentered, typed, found⟩)
      rcases adopts.cases_of_bare bare leads carried with bareAfter | rfl
      · refine ⟨0, .simple (adopts.entered_iff.2 entered) bareAfter leads ?_ ?_⟩
        · rw [adopts.frame.simpleTypes]
          exact typed
        · rw [adopts.frame.simpleFacets?]
          exact found
      · exact ⟨0, .own (adopts.entered_iff.2 entered) (Context.isEmpty_of_simpleFacets? found)⟩
  | @through name id nominal facets steps entered bare leads untyped later inductionHypothesis =>
      obtain ⟨more, laterAfter⟩ := inductionHypothesis
      have carried : before.carriedFacets? nominals nominal = some facets :=
        Context.carriedFacets?_eq_some_iff.2 (.inl ⟨steps, later⟩)
      rcases adopts.cases_of_bare bare leads carried with bareAfter | rfl
      · refine ⟨more + 1, .through (adopts.entered_iff.2 entered) bareAfter leads ?_ laterAfter⟩
        rw [adopts.frame.simpleTypes]
        exact untyped
      · exact ⟨0, .own (adopts.entered_iff.2 entered) later.isEmpty⟩

include adopts apart in
/-- What a way carries it carried before any declaration adopted it. -/
theorem exists_carries_before (carries : after.Carries nominals facets steps name) :
    ∃ more, before.Carries nominals facets more name := by
  induction carries with
  | @own name id entered present =>
      have enteredBefore := adopts.entered_iff.1 entered
      rcases adopts.cases_of_present present with same | ⟨bare, nominal, leads, carried⟩
      · rw [same] at present ⊢
        exact ⟨0, .own enteredBefore present⟩
      · rcases Context.carriedFacets?_eq_some_iff.1 carried with ⟨more, later⟩ | ⟨-, typed, found⟩
        · exact ⟨more + 1,
            .through enteredBefore bare leads (apart nominal.name later.indexed) later⟩
        · exact ⟨0, .simple enteredBefore bare leads typed found⟩
  | simple entered bare leads typed found =>
      rw [adopts.frame.simpleTypes] at typed
      rw [adopts.frame.simpleFacets?] at found
      exact ⟨0, .simple (adopts.entered_iff.1 entered) (adopts.bare_of_after bare) leads typed found⟩
  | through entered bare leads untyped _ inductionHypothesis =>
      obtain ⟨more, later⟩ := inductionHypothesis
      rw [adopts.frame.simpleTypes] at untyped
      exact ⟨more + 1,
        .through (adopts.entered_iff.1 entered) (adopts.bare_of_after bare) leads untyped later⟩

include adopts apart in
/-- The ways through declarations that have adopted facets carry what they carried before. -/
theorem exists_carries_iff : (∃ steps, after.Carries nominals facets steps name) ↔
    ∃ steps, before.Carries nominals facets steps name := by
  constructor
  · rintro ⟨steps, carries⟩
    exact adopts.exists_carries_before apart carries
  · rintro ⟨steps, carries⟩
    exact adopts.exists_carries_after apart carries

include adopts apart in
theorem carriedFacets? (nominal : Nominal) :
    after.carriedFacets? nominals nominal = before.carriedFacets? nominals nominal := by
  apply Option.ext
  intro facets
  have sameCarries := @exists_carries_iff before after nominals adopts apart nominal.name facets
  rw [Context.carriedFacets?_eq_some_iff, Context.carriedFacets?_eq_some_iff, sameCarries,
    adopts.frame.elementIndex, adopts.frame.simpleTypes, adopts.frame.simpleFacets?]

include adopts apart in
/-- The resolution of one more declaration. -/
theorem resolveElement (resolved : resolveElement nominals after id = .ok next) :
    Adopts nominals before next := by
  have stepFrame : Frame .any after next :=
    (frame_resolveElement (by intros; trivial) (by intros; trivial) nominals after id).of_ok
      resolved
  refine ⟨adopts.frame.trans stepFrame, fun other => ?_⟩
  by_cases same : other = id
  · subst same
    rcases cases_of_resolveElement resolved with rfl | ⟨element, resolution, found, resolves, given⟩
    · exact adopts.facets other
    · right
      have facets : next.facetsOf other = (after.facetsOf other).orElse
          (((nominals.find? other).bind (before.carriedFacets? nominals)).getD .empty) := by
        rw [facetsOf_of_element? given, facetsOf_of_element? found,
          ← funext (adopts.carriedFacets? apart), ← facets?_of_resolutionOf resolves,
          ← facets_notedOf element]
        exact Facets.orElse_getD _ _
      rw [facets]
      unfold Context.adopted
      rcases adopts.facets other with kept | adopted
      · rw [kept]
      · rw [adopted]
        exact Facets.orElse_orElse _ _
  · rw [stepFrame.facetsOf_of_same (resolveElement_elsewhere resolved same)]
    exact adopts.facets other

end Carried

end Adopts

/-! ## Independence of the order -/

/-- The resolution of types leaves every declaration as it would be if it were resolved alone, from
the context before the pass, but for its facets; and these are the same too if the context tells
declarations in the index and simple types apart. -/
theorem resolvedAlone_of_resolveTypes {root : NodeId} {final : Context}
    (resolved : resolveTypes root context = .ok final) (member : id ∈ context.walk root) :
    ∃ alone first after,
      resolveElement (.ofContext context root) context id = .ok alone ∧
        alone.element? id = some first ∧ final.element? id = some after ∧
        after = { first with facets := after.facets } ∧
        ((∀ name, context.elementIndex.contains name = true →
            context.simpleTypes.contains name = false) →
          after = first) := by
  let nominals := Nominals.ofContext context root
  have stepFrame : ∀ current id, Frame .any current
      (endContext (resolveElement nominals current id)) :=
    frame_resolveElement (by intros; trivial) (by intros; trivial) _
  have kept : ∀ {current id next}, (Frame .any context current ∧
        (context.TellsApart → Adopts nominals context current)) →
      resolveElement nominals current id = .ok next →
      Frame .any context next ∧ (context.TellsApart → Adopts nominals context next) :=
    fun held taken => ⟨held.1.trans ((stepFrame _ _).of_ok taken),
      fun apart => (held.2 apart).resolveElement apart taken⟩
  obtain ⟨before, after, ⟨frame, adopts⟩, same, visited, final⟩ :=
    exists_held_visit_of_foldlM resolveElement_elsewhere kept
      (Arena.nodup_walk context.arena root) member
      ⟨.refl .any context, fun _ => .refl nominals context⟩ resolved
  obtain ⟨element, found⟩ := Option.isSome_iff_exists.1 (Arena.mem_walk_iff.1 member).2
  have located : context.element? id = some element := found
  rw [located] at same
  cases typed : element.isPassedOver with
  | true =>
      refine ⟨context, element, element, resolveElement_of_passedOver located typed, located, ?_,
        rfl, fun _ => rfl⟩
      exact final.trans (passedOver_of_resolveElement same typed visited)
  | false =>
      obtain ⟨resolution, resolves, present⟩ := resolveElement_eq_ok same typed visited
      obtain ⟨earlier, resolvesAlone, upToFacets⟩ := frame.exists_resolutionOf resolves
      obtain ⟨alone, taken, first⟩ := exists_resolveElement located typed resolvesAlone
      rw [frame.notedOf] at present
      refine ⟨alone, _, _, taken, first, final.trans present, ?_, ?_⟩
      · rw [upToFacets]
        rfl
      · intro apart
        have facets : resolution.type.facets? = earlier.type.facets? := by
          rw [facets?_of_resolutionOf resolves, facets?_of_resolutionOf resolvesAlone,
            funext ((adopts apart).carriedFacets? apart)]
        rw [upToFacets, facets]

/-- An element of a simple type that allows one value, and an alias of it. -/
def adoptingSchema : Bytes :=
  schemaDocument [
    "<s:simpleType name='T'><s:restriction base='s:string'><s:enumeration value='x'/>",
    "</s:restriction></s:simpleType><s:element name='b' type='T'/>",
    "<s:element name='a' type='b'/>"]

/-- An element of the type of another one, which has adopted the value that its type allows before
the way through it is followed. -/
theorem resolvedAlone_of_resolveTypes_adopted :
    ∃ surveyed root final id first alone,
      survey .standard adoptingSchema = .ok (surveyed, root) ∧
      resolveTypes root surveyed = .ok final ∧ id ∈ surveyed.walk root ∧
      (∀ name, surveyed.elementIndex.contains name = true →
        surveyed.simpleTypes.contains name = false) ∧
      resolveElement (.ofContext surveyed root) surveyed id = .ok alone ∧
      alone.element? id = some first ∧ final.element? id = some first ∧
      first.name = "a" ∧ first.facets.enumeration = ["x"] := by
  have computed : surveysFlat .standard adoptingSchema
      (fun surveyed root =>
        surveyed.elementIndex.keys.all (fun name => !surveyed.simpleTypes.contains name) &&
          (resolveTypes root surveyed).toOption.any fun final =>
            (surveyed.walk root).any fun id =>
              (final.element? id).any fun element =>
                element.name = "a" && element.facets.enumeration = ["x"]) = true := by
    decide +kernel
  obtain ⟨surveyed, root, found, checked⟩ := exists_of_surveysFlat computed
  rw [Bool.and_eq_true] at checked
  obtain ⟨disjoint, goesThrough⟩ := checked
  obtain ⟨final, completed, checked⟩ := (Option.any_eq_true _ _).1 goesThrough
  have apart : ∀ name, surveyed.elementIndex.contains name = true →
      surveyed.simpleTypes.contains name = false := by
    intro name indexed
    have member := (Table.contains_iff_mem_keys _ _).1 indexed
    simpa using List.all_eq_true.1 disjoint name member
  have resolved : resolveTypes root surveyed = .ok final := by
    cases outcome : resolveTypes root surveyed with
    | error halt =>
        rw [outcome] at completed
        cases completed
    | ok result =>
        rw [outcome] at completed
        cases completed
        rfl
  obtain ⟨id, member, checked⟩ := List.any_eq_true.1 checked
  obtain ⟨element, present, described⟩ := (Option.any_eq_true _ _).1 checked
  simp only [Bool.and_eq_true, decide_eq_true_eq] at described
  obtain ⟨alone, first, after, taken, given, final', -, same⟩ :=
    resolvedAlone_of_resolveTypes resolved member
  cases final'.symm.trans present
  cases same apart
  exact ⟨surveyed, root, final, id, _, alone, found, resolved, member, apart, taken, given, present,
    described⟩

end XmlSchema
