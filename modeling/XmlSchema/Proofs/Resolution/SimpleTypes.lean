import XmlSchema.Proofs.FlatTrees
import XmlSchema.Proofs.Following
import XmlSchema.Proofs.Resolution.Facets
import XmlSchema.Proofs.Tree.Reading

/-!
# Where simple types lead

The bases of simple types lead from one name to the next. A chain follows them, and its end depends
on how many of the names are those of simple types: `ChainEnds` says how, by counting links alone,
and `chainEnds_iff` that every chain ends so. The bound is on the links between simple types, and the
one that leaves them comes on top. Bases in a cycle are beyond every bound, `chainEnds_of_cycle`.
-/

namespace XmlSchema

/-- The first facets that are not empty, of what is met at one place after the other. -/
def FirstFacets (met : Nat → Option Facets) (facets : Facets) : Prop :=
  ∃ place, met place = some facets ∧ facets.isEmpty = false ∧
    ∀ earlier < place, ∀ others, met earlier = some others → others.isEmpty = true

theorem firstFacets?_eq_some_iff {candidates : List Facets} {facets : Facets} :
    firstFacets? candidates = some facets ↔ FirstFacets (candidates[·]?) facets := by
  unfold firstFacets?
  rw [List.find?_eq_some_iff_getElem]
  constructor
  · rintro ⟨present, place, inside, rfl, earlier⟩
    refine ⟨place, List.getElem?_eq_getElem inside, by simpa using present, ?_⟩
    intro before lower others met
    obtain ⟨within, rfl⟩ := List.getElem?_eq_some_iff.1 met
    simpa using earlier before lower
  · rintro ⟨place, met, present, earlier⟩
    obtain ⟨inside, rfl⟩ := List.getElem?_eq_some_iff.1 met
    refine ⟨by simpa using present, place, inside, rfl, fun before lower => ?_⟩
    simpa using earlier before lower _ (List.getElem?_eq_getElem (Nat.lt_trans lower inside))

namespace Context

/-! ## Definitions -/

section Definitions

variable (context : Context)

/-- The base of a simple type, as tables know it. -/
def baseLink? (name : String) : Option String :=
  ((context.simpleType? name).bind SimpleType.base?).map context.vocabulary.tableName

/-- The name to which a number of bases lead. -/
def baseAfter? (links : Nat) (start : String) : Option String :=
  follow? context.baseLink? links start

/-- The simple type to which a number of bases lead. -/
def typeAfter? (links : Nat) (start : String) : Option SimpleType :=
  (context.baseAfter? links start).bind context.simpleType?

/-- How the bases from a name on end, with at most `hops` links from one simple type to another. -/
inductive ChainEnds (hops : Nat) (start : String) : ChainEnd → Prop where
  /-- After links between simple types there is one that leads out. -/
  | leaves {links : Nat} {name : String} (within : links ≤ hops)
      (reached : context.baseAfter? (links + 1) start = some name)
      (outside : context.simpleType? name = none) : ChainEnds hops start (.leaves name)
  | union {links : Nat} {type : SimpleType} (within : links ≤ hops)
      (reached : context.typeAfter? links start = some type) (baseless : type.base? = none)
      (joins : type.members ≠ []) : ChainEnds hops start .union
  | noBase {links : Nat} {name : String} {type : SimpleType} (within : links ≤ hops)
      (reached : context.baseAfter? links start = some name)
      (found : context.simpleType? name = some type) (baseless : type.base? = none)
      (lone : type.members = []) : ChainEnds hops start (.noBase name)
  /-- One link more than the bound still leads to a simple type. -/
  | endless {type : SimpleType} (reached : context.typeAfter? (hops + 1) start = some type) :
      ChainEnds hops start .endless

end Definitions

variable {context : Context} {hops links : Nat} {start name : String} {type : SimpleType}

/-! ## One link -/

theorem typeAfter?_eq_some_iff :
    context.typeAfter? links start = some type ↔
      ∃ name, context.baseAfter? links start = some name ∧ context.simpleType? name = some type :=
  Option.bind_eq_some_iff

theorem baseLink?_eq_some_iff {second : String} :
    context.baseLink? start = some second ↔
      ∃ type base, context.simpleType? start = some type ∧ type.base? = some base ∧
        context.vocabulary.tableName base = second := by
  unfold baseLink?
  simp only [Option.map_eq_some_iff, Option.bind_eq_some_iff]
  constructor
  · rintro ⟨base, ⟨type, found, based⟩, same⟩
    exact ⟨type, base, found, based, same⟩
  · rintro ⟨type, base, found, based, same⟩
    exact ⟨base, ⟨type, found, based⟩, same⟩

theorem baseLink?_of_absent (absent : context.simpleType? start = none) :
    context.baseLink? start = none := by
  unfold baseLink?
  rw [absent]
  rfl

section Links

variable {base : String} (found : context.simpleType? start = some type)

include found in
theorem baseLink?_of_declared :
    context.baseLink? start = type.base?.map context.vocabulary.tableName := by
  unfold baseLink?
  rw [found]
  rfl

include found in
theorem simpleChain_succ (based : type.base? = some base) :
    context.simpleChain (hops + 1) start =
      ⟨type :: (context.simpleChain hops (context.vocabulary.tableName base)).types,
        (context.simpleChain hops (context.vocabulary.tableName base)).ending⟩ := by
  rw [simpleChain, found]
  dsimp only
  rw [based]

include found in
theorem simpleChain_zero (based : type.base? = some base) :
    context.simpleChain 0 start =
      ⟨[type], if (context.simpleType? (context.vocabulary.tableName base)).isSome then .endless
        else .leaves (context.vocabulary.tableName base)⟩ := by
  rw [simpleChain, found]
  dsimp only
  rw [based]

include found in
theorem simpleChain_of_baseless (baseless : type.base? = none) :
    context.simpleChain hops start =
      ⟨[type], if type.members.isEmpty then .noBase start else .union⟩ := by
  rw [simpleChain, found]
  dsimp only
  rw [baseless]

theorem simpleChain_of_absent (absent : context.simpleType? start = none) :
    context.simpleChain hops start = ⟨[], .leaves start⟩ := by
  rw [simpleChain, absent]

end Links

/-! ## Many links -/

/-- Links between simple types that the bound allows leave the end as it is. -/
theorem ending_after (within : links ≤ hops) (reached : context.baseAfter? links start = some name) :
    (context.simpleChain hops start).ending =
      (context.simpleChain (hops - links) name).ending := by
  induction links generalizing hops start with
  | zero =>
      cases reached
      rfl
  | succ links inductionHypothesis =>
      obtain ⟨hops, rfl⟩ := Nat.exists_eq_succ_of_ne_zero (Nat.ne_zero_of_lt within)
      obtain ⟨second, link, onward⟩ := Option.bind_eq_some_iff.1 reached
      obtain ⟨type, base, found, based, rfl⟩ := baseLink?_eq_some_iff.1 link
      rw [simpleChain_succ found based, Nat.succ_sub_succ]
      exact inductionHypothesis (Nat.le_of_succ_le_succ within) onward

/-- A link out of the simple types is the last one, whatever the bound. -/
theorem ending_of_link {before : String} (link : context.baseLink? before = some name)
    (outside : context.simpleType? name = none) :
    (context.simpleChain hops before).ending = .leaves name := by
  obtain ⟨type, base, found, based, rfl⟩ := baseLink?_eq_some_iff.1 link
  cases hops with
  | zero =>
      rw [simpleChain_zero found based, outside]
      rfl
  | succ hops => rw [simpleChain_succ found based, simpleChain_of_absent outside]

theorem ending_of_chainEnds {ending : ChainEnd} (ends : context.ChainEnds hops start ending) :
    (context.simpleChain hops start).ending = ending := by
  cases ends with
  | leaves within reached outside =>
      obtain ⟨before, earlier, link⟩ := follow?_succ_eq_some_iff.1 reached
      rw [ending_after within earlier, ending_of_link link outside]
  | union within reached baseless joins =>
      obtain ⟨name, earlier, found⟩ := typeAfter?_eq_some_iff.1 reached
      rw [ending_after within earlier, simpleChain_of_baseless found baseless]
      exact if_neg (mt List.isEmpty_iff.1 joins)
  | noBase within reached found baseless lone =>
      rw [ending_after within reached, simpleChain_of_baseless found baseless]
      exact if_pos (List.isEmpty_iff.2 lone)
  | endless reached =>
      obtain ⟨name, earlier, found⟩ := typeAfter?_eq_some_iff.1 reached
      obtain ⟨before, sooner, link⟩ := follow?_succ_eq_some_iff.1 earlier
      obtain ⟨type, base, declared, based, rfl⟩ := baseLink?_eq_some_iff.1 link
      rw [ending_after (Nat.le_refl hops) sooner, Nat.sub_self, simpleChain_zero declared based]
      exact if_pos (Option.isSome_of_eq_some found)

/-- Up to the bound and one link more, the links lead to a simple type, or the chain has ended. -/
theorem typeAfter?_or_chainEnds (declared : context.simpleType? start = some type)
    (within : links ≤ hops + 1) :
    (∃ reached, context.typeAfter? links start = some reached) ∨
      ∃ ending, context.ChainEnds hops start ending := by
  induction links with
  | zero => exact .inl ⟨type, declared⟩
  | succ links inductionHypothesis =>
      rcases inductionHypothesis (Nat.le_of_succ_le within) with ⟨current, reached⟩ | ended
      · obtain ⟨name, earlier, found⟩ := typeAfter?_eq_some_iff.1 reached
        have bounded : links ≤ hops := Nat.le_of_succ_le_succ within
        cases based : current.base? with
        | none =>
            by_cases joins : current.members = []
            · exact .inr ⟨_, .noBase bounded earlier found based joins⟩
            · exact .inr ⟨_, .union bounded reached based joins⟩
        | some base =>
            have link : context.baseLink? name = some (context.vocabulary.tableName base) :=
              baseLink?_eq_some_iff.2 ⟨current, base, found, based, rfl⟩
            have next : context.baseAfter? (links + 1) start =
                some (context.vocabulary.tableName base) :=
              follow?_succ_eq_some_iff.2 ⟨name, earlier, link⟩
            cases last : context.simpleType? (context.vocabulary.tableName base) with
            | none => exact .inr ⟨_, .leaves bounded next last⟩
            | some following =>
                exact .inl ⟨following, typeAfter?_eq_some_iff.2 ⟨_, next, last⟩⟩
      · exact .inr ended

theorem exists_chainEnds (declared : context.simpleType? start = some type) :
    ∃ ending, context.ChainEnds hops start ending := by
  rcases typeAfter?_or_chainEnds declared (Nat.le_refl (hops + 1)) with ⟨reached, later⟩ | ended
  · exact ⟨.endless, .endless later⟩
  · exact ended

/-- A chain from a simple type ends as counting links says. -/
theorem chainEnds_iff (declared : context.simpleType? start = some type) {ending : ChainEnd} :
    context.ChainEnds hops start ending ↔ (context.simpleChain hops start).ending = ending := by
  constructor
  · exact ending_of_chainEnds
  · rintro rfl
    obtain ⟨ending, ends⟩ : ∃ ending, context.ChainEnds hops start ending :=
      exists_chainEnds declared
    rw [ending_of_chainEnds ends]
    exact ends

/-- Bases in a cycle never leave the simple types, nor do those of a type that leads into it. -/
theorem chainEnds_of_cycle {first again : Nat} (earlier : first < again)
    (once : context.baseAfter? first start = some name)
    (twice : context.baseAfter? again start = some name) :
    context.ChainEnds hops start .endless := by
  obtain ⟨last, reached⟩ := exists_follow?_of_cycle earlier once twice (hops + 2)
  obtain ⟨before, sooner, link⟩ := follow?_succ_eq_some_iff.1 reached
  obtain ⟨type, base, found, -, -⟩ := baseLink?_eq_some_iff.1 link
  exact .endless (typeAfter?_eq_some_iff.2 ⟨before, sooner, found⟩)

/-! ## The types on the way -/

theorem typeAfter?_succ :
    context.typeAfter? (links + 1) start =
      (context.baseLink? start).bind (context.typeAfter? links) :=
  Option.bind_assoc ..

theorem typeAfter?_of_absent (absent : context.simpleType? start = none) :
    context.typeAfter? links start = none := by
  cases links with
  | zero => exact absent
  | succ links =>
      rw [typeAfter?_succ, baseLink?_of_absent absent]
      rfl

/-- The types of a chain are that of its name and those behind the base, if the bound allows for
them. -/
theorem types_simpleChain (found : context.simpleType? start = some type) :
    (context.simpleChain hops start).types =
      type :: match hops with
        | 0 => []
        | hops + 1 =>
            (context.baseLink? start).elim [] fun name => (context.simpleChain hops name).types := by
  rw [baseLink?_of_declared found]
  cases based : type.base? with
  | none =>
      rw [simpleChain_of_baseless found based]
      cases hops <;> rfl
  | some base =>
      cases hops with
      | zero => rw [simpleChain_zero found based]
      | succ hops =>
          rw [simpleChain_succ found based]
          rfl

/-- A chain visits the types to which its links lead, as far as the bound goes. -/
theorem getElem?_types_simpleChain (hops links : Nat) (start : String) :
    (context.simpleChain hops start).types[links]? =
      if links ≤ hops then context.typeAfter? links start else none := by
  cases found : context.simpleType? start with
  | none =>
      rw [simpleChain_of_absent found, typeAfter?_of_absent found, ite_self]
      rfl
  | some type =>
      rw [types_simpleChain found]
      cases links with
      | zero => exact found.symm
      | succ links =>
          rw [List.getElem?_cons_succ, typeAfter?_succ]
          cases hops with
          | zero => rfl
          | succ hops =>
              simp only [Nat.succ_le_succ_iff]
              cases context.baseLink? start with
              | none => rw [Option.bind_none, ite_self, Option.elim_none, List.getElem?_nil]
              | some name => exact getElem?_types_simpleChain hops links name

/-- The first facets of a chain are the first ones met on its way within the bound. -/
theorem simpleFacets?_eq_some_iff {facets : Facets} :
    context.simpleFacets? start = some facets ↔
      FirstFacets (fun links => if links ≤ context.options.limits.simpleTypeHops then
        (context.typeAfter? links start).map SimpleType.facets else none) facets := by
  unfold simpleFacets?
  rw [firstFacets?_eq_some_iff]
  have met : ∀ links, ((context.simpleChain context.options.limits.simpleTypeHops start).types.map
      SimpleType.facets)[links]? =
        if links ≤ context.options.limits.simpleTypeHops then
          (context.typeAfter? links start).map SimpleType.facets else none := by
    intro links
    rw [List.getElem?_map, getElem?_types_simpleChain]
    split <;> rfl
  rw [funext met]

/-! ## What a chain resolves to -/

/-- What the resolution of a simple type for a node is, in terms of the bases and the bound. -/
structure FollowsBases (context : Context) (node start : String)
    (resolved : Except Error ResolvedType) : Prop where
  /-- Either the bases leave the simple types within the bound, or they end within it at a type
  without a base, or they go on beyond it. -/
  ends : ∃! ending, context.ChainEnds context.options.limits.simpleTypeHops start ending
  leaves : ∀ name, context.ChainEnds context.options.limits.simpleTypeHops start (.leaves name) →
    resolved.map ResolvedType.name = .ok name
  union : context.ChainEnds context.options.limits.simpleTypeHops start .union →
    resolved.map ResolvedType.name = .ok context.vocabulary.stringType
  noBase : ∀ name, context.ChainEnds context.options.limits.simpleTypeHops start (.noBase name) →
    resolved.map ResolvedType.name = context.fallBack node (.noBase name)
  endless : context.ChainEnds context.options.limits.simpleTypeHops start .endless →
    resolved.map ResolvedType.name = context.fallBack node (.endlessChain start)
  cycle : ∀ name first again, first < again → context.baseAfter? first start = some name →
    context.baseAfter? again start = some name →
    context.ChainEnds context.options.limits.simpleTypeHops start .endless
  facets : ∀ type, resolved = .ok type → ∀ facets, type.facets? = some facets ↔
    FirstFacets (fun links => if links ≤ context.options.limits.simpleTypeHops then
      (context.typeAfter? links start).map SimpleType.facets else none) facets

theorem name_of_chainEnds {ending : ChainEnd} (node : String)
    (ends : context.ChainEnds context.options.limits.simpleTypeHops start ending) :
    (context.resolveSimple node start).map ResolvedType.name =
      context.settleChain node start ending := by
  unfold resolveSimple
  dsimp only
  rw [ending_of_chainEnds ends]
  cases context.settleChain node start ending <;> rfl

end Context

/-- The resolution of a simple type follows the bases from its name on. The bound is on the links
that lead from one simple type to another: the name outside behind as many of them is still found,
with one more the policy decides. So it does for a cycle of bases of any length, also behind types
that are not on it. The facets are the first ones among the types met within the bound. -/
theorem followsBases_of_resolveSimple {context : Context} {start : String} {type : SimpleType}
    (declared : context.simpleType? start = some type) (node : String) :
    context.FollowsBases node start (context.resolveSimple node start) where
  ends := by
    refine ⟨_, (Context.chainEnds_iff declared).2 rfl, fun ending ends => ?_⟩
    exact (Context.ending_of_chainEnds ends).symm
  leaves _ ends := Context.name_of_chainEnds node ends
  union ends := Context.name_of_chainEnds node ends
  noBase _ ends := Context.name_of_chainEnds node ends
  endless ends := Context.name_of_chainEnds node ends
  cycle _ _ _ earlier once twice := Context.chainEnds_of_cycle earlier once twice
  facets type resolved facets := by
    rw [Context.facets?_of_resolveSimple resolved]
    exact Context.simpleFacets?_eq_some_iff

/-- A chain of four simple types that ends at a built-in one, and another that leads into a cycle. -/
def simpleChainSchema : Bytes :=
  schemaDocument [
    "<s:simpleType name='U'><s:restriction base='T'/></s:simpleType>",
    "<s:simpleType name='T'><s:restriction base='x:V'/></s:simpleType>",
    "<s:simpleType name='V'><s:restriction base='W'><s:enumeration value='1'/>",
    "</s:restriction></s:simpleType>",
    "<s:simpleType name='W'><s:restriction base='s:int'/></s:simpleType>",
    "<s:simpleType name='D'><s:restriction base='A'/></s:simpleType>",
    "<s:simpleType name='A'><s:restriction base='B'/></s:simpleType>",
    "<s:simpleType name='B'><s:restriction base='A'/></s:simpleType>"]

/-- With two links allowed, the third one from `T` on still leads out of the simple types, behind a
base with a namespace and facets that are not those of the first type. `U` is one link farther away,
and `D` leads into a cycle: both are refused. -/
theorem followsBases_of_resolveSimple_boundary :
    ∃ context root, readTree (.initial ⟨⟨1000, 1000000, 100, 2, 100⟩, .strict, .standard⟩)
        simpleChainSchema = .ok (context, root) ∧
      (∃ type, context.resolveSimple "n" "T" = .ok type ∧ type.name = "s:int" ∧
        type.facets? = some ⟨["1"], none⟩) ∧
      (context.resolveSimple "n" "U").map ResolvedType.name =
        .error (.semantic ⟨"n", .endlessChain "U"⟩) ∧
      (context.resolveSimple "n" "D").map ResolvedType.name =
        .error (.semantic ⟨"n", .endlessChain "D"⟩) := by
  have computed : readsTree ⟨⟨1000, 1000000, 100, 2, 100⟩, .strict, .standard⟩ simpleChainSchema
      (fun context _ =>
        decide (context.options.limits.simpleTypeHops = 2 ∧ context.options.fallback = .strict) &&
        (context.simpleType? "T").any (fun type => decide (type.facets = .empty)) &&
        (context.typeAfter? 1 "T").any (fun type => decide (type.facets = ⟨["1"], none⟩)) &&
        decide (context.baseAfter? 3 "T" = some "s:int" ∧ context.simpleType? "s:int" = none) &&
        (context.simpleType? "U").isSome && (context.typeAfter? 3 "U").isSome &&
        (context.simpleType? "D").isSome &&
        decide (context.baseAfter? 1 "D" = some "A" ∧ context.baseAfter? 3 "D" = some "A")) =
        true := by
    decide +kernel
  obtain ⟨context, root, read, checked⟩ := exists_of_readsTree computed
  simp only [Bool.and_eq_true, Option.any_eq_true, Option.isSome_iff_exists,
    decide_eq_true_eq] at checked
  obtain ⟨⟨⟨⟨⟨⟨⟨⟨hops, strict⟩, first, foundFirst, bare⟩, second, foundSecond, constrained⟩, leads,
    outside⟩, farther, foundFarther⟩, beyond, reached⟩, tail, foundTail⟩, once, twice⟩ := checked
  have refuses : ∀ cause, context.fallBack "n" cause = .error (.semantic ⟨"n", cause⟩) := by
    intro cause
    unfold Context.fallBack
    rw [strict]
  have boundary := followsBases_of_resolveSimple foundFirst "n"
  have tooFar := followsBases_of_resolveSimple foundFarther "n"
  have around := followsBases_of_resolveSimple foundTail "n"
  refine ⟨context, root, read, ?_, ?_, ?_⟩
  · have third : context.baseAfter? (2 + 1) "T" = some "s:int" := leads
    have name := boundary.leaves "s:int" (.leaves (Nat.le_of_eq hops.symm) third outside)
    obtain ⟨type, resolved, isNamed⟩ := map_eq_ok_iff.1 name
    refine ⟨type, resolved, isNamed, (boundary.facets type resolved _).2 ⟨1, ?_, rfl, ?_⟩⟩
    · dsimp only
      rw [hops, if_pos (by decide), foundSecond, Option.map_some, constrained]
    · intro place sooner others met
      cases Nat.lt_one_iff.1 sooner
      dsimp only at met
      have own : context.typeAfter? 0 "T" = some first := foundFirst
      rw [if_pos (Nat.zero_le _), own, Option.map_some, bare] at met
      cases met
      rfl
  · have fourth : context.typeAfter? (context.options.limits.simpleTypeHops + 1) "U" =
        some beyond := by
      rw [hops]
      exact reached
    rw [tooFar.endless (.endless fourth), refuses]
  · rw [around.endless (around.cycle "A" 1 3 (by decide) once twice), refuses]

end XmlSchema
