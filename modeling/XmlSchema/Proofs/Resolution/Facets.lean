import XmlSchema.Proofs.Resolution

/-!
# Facets along a chain

A declaration without facets adopts the first ones on the way to its type. Along a chain of aliases
these are the facets of a declaration, or those of a simple type behind the last one. `Carries` says
which they are without looking at the names visited: where a way comes back to a name, none were
found since, so none will be. The chain finds exactly these, `chainFacets?_eq_some_iff`, and
resolution adopts them, `facets?_of_resolve`.
-/

namespace XmlSchema

theorem firstFacets?_cons (facets : Facets) (rest : List Facets) :
    firstFacets? (facets :: rest) =
      if facets.isEmpty then firstFacets? rest else some facets := by
  unfold firstFacets?
  rw [List.find?_cons]
  cases facets.isEmpty <;> rfl

theorem firstFacets?_append (first second : List Facets) :
    firstFacets? (first ++ second) = (firstFacets? first).or (firstFacets? second) :=
  List.find?_append

theorem isEmpty_of_firstFacets? {candidates : List Facets} {facets : Facets}
    (found : firstFacets? candidates = some facets) : facets.isEmpty = false := by
  unfold firstFacets? at found
  have passed := List.find?_some found
  simpa using passed

/-- The first facets of a list stand for the list. -/
theorem firstFacets?_append_toList (first second : List Facets) :
    firstFacets? (first ++ (firstFacets? second).toList) =
      (firstFacets? first).or (firstFacets? second) := by
  rw [firstFacets?_append]
  cases found : firstFacets? second with
  | none => rfl
  | some facets =>
      rw [Option.toList_some, firstFacets?_cons, isEmpty_of_firstFacets? found]
      rfl

namespace Context

/-! ## Definitions -/

/-- The first facets on a chain of simple types. -/
def simpleFacets? (context : Context) (start : String) : Option Facets :=
  firstFacets?
    ((context.simpleChain context.options.limits.simpleTypeHops start).types.map SimpleType.facets)

/-- The first facets on a chain of aliases, and on the chain of simple types behind it. -/
def chainFacets? (context : Context) (chain : AliasChain) : Option Facets :=
  let behind? :=
    match chain.ending with
    | .simple simple => context.simpleFacets? simple
    | .outside _ => none
    | .structured => none
  (firstFacets? chain.facets).or behind?

/-- The facets that the way from a nominal type carries along. -/
def carriedFacets? (context : Context) (nominals : Nominals) (nominal : Nominal) : Option Facets :=
  if context.elementIndex.contains nominal.name then
    context.chainFacets? (context.aliasChain nominals [nominal.name] nominal.name)
  else if context.simpleTypes.contains nominal.name then context.simpleFacets? nominal.name
  else none

/-- The first facets on the way from a name in the index, behind a number of declarations that have
none and are aliases. -/
inductive Carries (context : Context) (nominals : Nominals) : Facets → Nat → String → Prop where
  | own {name : String} {id : NodeId} (entered : context.elementIndex.find? name = some id)
      (present : (context.facetsOf id).isEmpty = false) :
      Carries context nominals (context.facetsOf id) 0 name
  | simple {name : String} {id : NodeId} {nominal : Nominal} {facets : Facets}
      (entered : context.elementIndex.find? name = some id)
      (bare : (context.facetsOf id).isEmpty = true) (leads : nominals.find? id = some nominal)
      (typed : context.simpleTypes.contains nominal.name = true)
      (carried : context.simpleFacets? nominal.name = some facets) :
      Carries context nominals facets 0 name
  | through {name : String} {id : NodeId} {nominal : Nominal} {facets : Facets} {steps : Nat}
      (entered : context.elementIndex.find? name = some id)
      (bare : (context.facetsOf id).isEmpty = true) (leads : nominals.find? id = some nominal)
      (untyped : context.simpleTypes.contains nominal.name = false)
      (later : Carries context nominals facets steps nominal.name) :
      Carries context nominals facets (steps + 1) name

/-! ## What a chain of aliases carries -/

section Chains

variable {context : Context} {nominals : Nominals} {facets other : Facets} {steps more : Nat}
  {name : String}

theorem isEmpty_of_simpleFacets? (found : context.simpleFacets? name = some facets) :
    facets.isEmpty = false :=
  isEmpty_of_firstFacets? found

namespace Carries

theorem isEmpty (carries : context.Carries nominals facets steps name) :
    facets.isEmpty = false := by
  induction carries with
  | own _ present => exact present
  | simple _ _ _ _ carried => exact isEmpty_of_simpleFacets? carried
  | through _ _ _ _ _ inductionHypothesis => exact inductionHypothesis

theorem indexed (carries : context.Carries nominals facets steps name) :
    context.elementIndex.contains name = true := by
  have entered : ∃ id, context.elementIndex.find? name = some id := by
    cases carries with
    | own entered _ => exact ⟨_, entered⟩
    | simple entered _ _ _ _ => exact ⟨_, entered⟩
    | through entered _ _ _ _ => exact ⟨_, entered⟩
  obtain ⟨id, entered⟩ := entered
  exact Table.contains_of_find? entered

theorem unique (carries : context.Carries nominals facets steps name)
    (others : context.Carries nominals other more name) : facets = other ∧ steps = more := by
  induction carries generalizing other more with
  | own entered present =>
      cases others with
      | own again _ =>
          cases entered.symm.trans again
          exact ⟨rfl, rfl⟩
      | simple again bare _ _ _ =>
          cases entered.symm.trans again
          rw [present] at bare
          cases bare
      | through again bare _ _ _ =>
          cases entered.symm.trans again
          rw [present] at bare
          cases bare
  | simple entered bare leads typed carried =>
      cases others with
      | own again present =>
          cases entered.symm.trans again
          rw [present] at bare
          cases bare
      | simple again _ leadsToo _ carriedToo =>
          cases entered.symm.trans again
          cases leads.symm.trans leadsToo
          exact ⟨Option.some.inj (carried.symm.trans carriedToo), rfl⟩
      | through again _ leadsToo untyped _ =>
          cases entered.symm.trans again
          cases leads.symm.trans leadsToo
          rw [typed] at untyped
          cases untyped
  | through entered bare leads untyped _ inductionHypothesis =>
      cases others with
      | own again present =>
          cases entered.symm.trans again
          rw [present] at bare
          cases bare
      | simple again _ leadsToo typed _ =>
          cases entered.symm.trans again
          cases leads.symm.trans leadsToo
          rw [typed] at untyped
          cases untyped
      | through again _ leadsToo _ laterToo =>
          cases entered.symm.trans again
          cases leads.symm.trans leadsToo
          obtain ⟨sameFacets, sameSteps⟩ := inductionHypothesis laterToo
          exact ⟨sameFacets, congrArg Nat.succ sameSteps⟩

end Carries

theorem chainFacets?_cons (facets : Facets) (rest : List Facets) (ending : AliasEnd) :
    context.chainFacets? ⟨facets :: rest, ending⟩ =
      if facets.isEmpty then context.chainFacets? ⟨rest, ending⟩ else some facets := by
  unfold chainFacets?
  dsimp only
  rw [firstFacets?_cons]
  split <;> rfl

/-- One step along a chain, in search of facets. -/
theorem chainFacets?_step (visited : List String) (name : String) :
    context.chainFacets? (context.aliasChain nominals visited name) =
      match context.elementIndex.find? name with
      | none => none
      | some id =>
          if (context.facetsOf id).isEmpty then
            match nominals.find? id with
            | none => none
            | some nominal =>
                if context.simpleTypes.contains nominal.name then
                  context.simpleFacets? nominal.name
                else if context.elementIndex.contains nominal.name = false then none
                else if nominal.name ∈ visited then none
                else
                  context.chainFacets?
                    (context.aliasChain nominals (nominal.name :: visited) nominal.name)
          else some (context.facetsOf id) := by
  rw [aliasChain_step]
  cases context.elementIndex.find? name with
  | none => rfl
  | some id =>
      dsimp only
      cases nominals.find? id with
      | none => exact chainFacets?_cons _ [] _
      | some nominal =>
          dsimp only
          split
          · exact chainFacets?_cons _ [] _
          · split
            · exact chainFacets?_cons _ [] _
            · split
              · exact chainFacets?_cons _ [] _
              · exact chainFacets?_cons _ _ _

/-- What a chain finds is carried from its name. -/
theorem exists_carries_of_chainFacets? {visited : List String} {name : String}
    (found : context.chainFacets? (context.aliasChain nominals visited name) = some facets) :
    ∃ steps, context.Carries nominals facets steps name := by
  rw [chainFacets?_step] at found
  split at found
  · cases found
  · rename_i id entered
    split at found
    · rename_i bare
      split at found
      · cases found
      · rename_i nominal leads
        split at found
        · rename_i typed
          exact ⟨0, .simple entered bare leads typed found⟩
        · rename_i untyped
          split at found
          · cases found
          · rename_i present
            split at found
            · cases found
            · rename_i fresh
              obtain ⟨steps, later⟩ := exists_carries_of_chainFacets? found
              exact ⟨steps + 1, .through entered bare leads (Bool.of_not_eq_true untyped) later⟩
    · rename_i present
      cases found
      exact ⟨0, .own entered (Bool.of_not_eq_true present)⟩
termination_by unvisited context.elementIndex.keys visited
decreasing_by
  exact unvisitedKeys_cons_lt (Bool.of_not_eq_false (by assumption)) (by assumption)

/-- What is carried from a name is what a chain finds from there on, if no name visited before has
a shorter way to facets. -/
theorem chainFacets?_of_carries {visited : List String}
    (carries : context.Carries nominals facets steps name)
    (earlier : ∀ before ∈ visited, ∀ {facets more}, context.Carries nominals facets more before →
      steps ≤ more) :
    context.chainFacets? (context.aliasChain nominals visited name) = some facets := by
  induction carries generalizing visited with
  | own entered present =>
      rw [chainFacets?_step, entered]
      dsimp only
      rw [present]
      rfl
  | simple entered bare leads typed carried =>
      rw [chainFacets?_step, entered]
      dsimp only
      rw [if_pos bare, leads]
      dsimp only
      rw [if_pos typed]
      exact carried
  | @through name id nominal facets steps entered bare leads untyped later inductionHypothesis =>
      have present : ¬ context.elementIndex.contains nominal.name = false := by
        rw [later.indexed]
        decide
      -- The way from here is shorter than that from any name visited, so it meets none of them.
      have fresh : nominal.name ∉ visited := by
        intro member
        exact absurd (earlier nominal.name member later) (Nat.not_succ_le_self steps)
      rw [chainFacets?_step, entered]
      dsimp only
      rw [if_pos bare, leads]
      dsimp only
      rw [untyped, if_neg Bool.false_ne_true, if_neg present, if_neg fresh]
      apply inductionHypothesis
      intro before member facets more others
      rcases List.mem_cons.1 member with rfl | member
      · exact Nat.le_of_eq (later.unique others).2
      · exact Nat.le_of_succ_le (earlier before member others)

/-- A chain finds what is carried from its name. -/
theorem chainFacets?_eq_some_iff :
    context.chainFacets? (context.aliasChain nominals [name] name) = some facets ↔
      ∃ steps, context.Carries nominals facets steps name := by
  constructor
  · exact exists_carries_of_chainFacets?
  · rintro ⟨steps, carries⟩
    apply chainFacets?_of_carries carries
    intro before member facets more others
    cases List.mem_singleton.1 member
    exact Nat.le_of_eq (carries.unique others).2

/-- What is carried from a nominal type is carried along the chain of aliases from its name, or,
where the name is not in the index, along the chain of simple types. -/
theorem carriedFacets?_eq_some_iff {nominal : Nominal} :
    context.carriedFacets? nominals nominal = some facets ↔
      (∃ steps, context.Carries nominals facets steps nominal.name) ∨
        context.elementIndex.contains nominal.name = false ∧
          context.simpleTypes.contains nominal.name = true ∧
          context.simpleFacets? nominal.name = some facets := by
  unfold carriedFacets?
  cases indexed : context.elementIndex.contains nominal.name with
  | true =>
      rw [if_pos rfl, chainFacets?_eq_some_iff]
      simp
  | false =>
      have nothing : ¬ ∃ steps, context.Carries nominals facets steps nominal.name := by
        rintro ⟨steps, carries⟩
        rw [carries.indexed] at indexed
        cases indexed
      rw [if_neg Bool.false_ne_true]
      cases context.simpleTypes.contains nominal.name <;> simp [nothing]

end Chains

/-! ## What resolution adopts -/

section Resolution

variable {context : Context} {nominals : Nominals} {node : String}

theorem facets?_of_resolveSimple {start : String} {type : ResolvedType}
    (resolved : context.resolveSimple node start = .ok type) :
    type.facets? = context.simpleFacets? start := by
  obtain ⟨name, settled, rfl⟩ := map_eq_ok_iff.1 resolved
  rfl

theorem facets?_of_resolveAlias {name : String} {resolution : Resolution}
    (resolved : context.resolveAlias nominals node name = .ok resolution) :
    resolution.type.facets? =
      context.chainFacets? (context.aliasChain nominals [name] name) := by
  unfold resolveAlias at resolved
  dsimp only at resolved
  unfold chainFacets?
  dsimp only
  cases ending : (context.aliasChain nominals [name] name).ending with
  | simple simple =>
      rw [ending] at resolved
      obtain ⟨type, found, same⟩ := map_eq_ok_iff.1 resolved
      dsimp only at same ⊢
      rw [facets?_of_resolveSimple found] at same
      unfold simpleFacets? at same ⊢
      rw [firstFacets?_append_toList] at same
      split at same
      · rw [← same]
      · rw [← same]
  | outside outside =>
      rw [ending] at resolved
      have same := Except.ok.inj resolved
      dsimp only at same ⊢
      rw [firstFacets?_append] at same
      split at same
      · rw [← same]
        rfl
      · rw [← same]
        rfl
  | structured =>
      rw [ending] at resolved
      cases resolved
      exact Option.or_none.symm

/-- Resolution finds the facets that the way from the nominal type carries along. -/
theorem facets?_of_resolve {nominal : Nominal} {resolution : Resolution}
    (resolved : context.resolve nominals node nominal = .ok resolution) :
    resolution.type.facets? = context.carriedFacets? nominals nominal := by
  unfold resolve at resolved
  unfold carriedFacets?
  dsimp only at resolved
  by_cases indexed : context.elementIndex.contains nominal.name
  · rw [if_pos indexed] at resolved ⊢
    exact facets?_of_resolveAlias resolved
  · rw [if_neg indexed] at resolved ⊢
    by_cases simple : context.simpleTypes.contains nominal.name
    · rw [if_pos simple] at resolved ⊢
      obtain ⟨type, found, rfl⟩ := map_eq_ok_iff.1 resolved
      exact facets?_of_resolveSimple found
    · rw [if_neg simple] at resolved ⊢
      split at resolved
      · cases resolved
        rfl
      · split at resolved
        · cases resolved
          rfl
        · obtain ⟨name, given, rfl⟩ := map_eq_ok_iff.1 resolved
          rfl

end Resolution

end Context

end XmlSchema
