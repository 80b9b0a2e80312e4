import XmlSchema.Proofs.Resolution.SimpleTypes

/-!
# Where aliases lead

The nominal types of declarations lead from one name to the next. `AliasEnds` says how the aliases
from a name on end, by following names alone: simple types come before the index, and a name that is
reached again ends them. There is one such end, `AliasEnds.unique`, and a chain of aliases, which
remembers the names visited, finds it, `aliasEnds_iff`. What resolution makes of it is `followAlias`;
the facets carried along are those of `Carries`.
-/

namespace XmlSchema

namespace Context

/-! ## Definitions -/

section Definitions

variable (context : Context) (nominals : Nominals)

/-- The nominal type of the declaration with a name. -/
def aliasLink? (name : String) : Option String :=
  ((context.elementIndex.find? name).bind nominals.find?).map Nominal.name

/-- The nominal type, if it is not a simple type. -/
def untypedLink? (name : String) : Option String :=
  (context.aliasLink? nominals name).filter fun second => !context.simpleTypes.contains second

/-- The name to which a number of aliases lead without coming to a simple type. -/
def aliasAfter? (links : Nat) (start : String) : Option String :=
  follow? (context.untypedLink? nominals) links start

/-- How the aliases from a name on end. -/
inductive AliasEnds (start : String) : AliasEnd → Prop where
  /-- At the first nominal type that is a simple type. -/
  | simple {links : Nat} {before name : String}
      (reached : context.aliasAfter? nominals links start = some before)
      (link : context.aliasLink? nominals before = some name)
      (typed : context.simpleTypes.contains name = true) : AliasEnds start (.simple name)
  /-- At the first nominal type that is not in the index. -/
  | outside {links : Nat} {name : String}
      (reached : context.aliasAfter? nominals (links + 1) start = some name)
      (absent : context.elementIndex.contains name = false) : AliasEnds start (.outside name)
  /-- At a declaration without a nominal type. -/
  | unnamed {links : Nat} {name : String}
      (reached : context.aliasAfter? nominals links start = some name)
      (indexed : context.elementIndex.contains name = true)
      (lacks : context.aliasLink? nominals name = none) : AliasEnds start .structured
  /-- At a name that is reached again. -/
  | again {first second : Nat} {name : String} (earlier : first < second)
      (once : context.aliasAfter? nominals first start = some name)
      (twice : context.aliasAfter? nominals second start = some name) :
      AliasEnds start .structured

/-- How aliases end that lead to a last name. -/
def aliasEndAt (last : String) : AliasEnd :=
  if context.elementIndex.contains last then
    match context.aliasLink? nominals last with
    | none => .structured
    | some name => .simple name
  else .outside last

/-- What aliases that end so lead to, for the node of a name. At a structure they lead to nothing. -/
def settleAlias (node : String) : AliasEnd → Except Error (Option String)
  | .simple name => (context.resolveSimple node name).map fun type => some type.name
  | .outside name => .ok (some name)
  | .structured => .ok none

/-- What the aliases from a name on lead to, and the facets carried along. -/
def followAlias (node start : String) : Except Error (Option String × Option Facets) :=
  let chain := context.aliasChain nominals [start] start
  (context.settleAlias node chain.ending).map fun target => (target, context.chainFacets? chain)

/-- A declaration whose nominal type is an alias has the built-in type to which it leads, and else
it has the structure of the alias. -/
def aliasResolution (start : String) : Option String × Option Facets → Resolution
  | (some name, facets?) =>
      if context.vocabulary.isBuiltin name then ⟨⟨name, facets?⟩, false⟩
      else ⟨⟨start, facets?⟩, true⟩
  | (none, facets?) => ⟨⟨start, facets?⟩, true⟩

end Definitions

variable {context : Context} {nominals : Nominals} {links : Nat} {start name second : String}

/-! ## One alias -/

theorem aliasLink?_of_indexed {id : NodeId} (entered : context.elementIndex.find? name = some id) :
    context.aliasLink? nominals name = (nominals.find? id).map Nominal.name := by
  unfold aliasLink?
  rw [entered]
  rfl

theorem aliasLink?_of_absent (absent : context.elementIndex.contains name = false) :
    context.aliasLink? nominals name = none := by
  have missing : context.elementIndex.find? name = none := by
    simpa [Table.contains] using absent
  unfold aliasLink?
  rw [missing]
  rfl

theorem indexed_of_aliasLink? (link : context.aliasLink? nominals name = some second) :
    context.elementIndex.contains name = true := by
  refine Bool.of_not_eq_false fun absent => ?_
  rw [aliasLink?_of_absent absent] at link
  cases link

theorem untypedLink?_eq_some_iff :
    context.untypedLink? nominals name = some second ↔
      context.aliasLink? nominals name = some second ∧
        context.simpleTypes.contains second = false := by
  unfold untypedLink?
  rw [Option.filter_eq_some_iff]
  simp

/-- Nothing follows a simple type. -/
theorem untypedLink?_of_typed (link : context.aliasLink? nominals name = some second)
    (typed : context.simpleTypes.contains second = true) :
    context.untypedLink? nominals name = none := by
  unfold untypedLink?
  rw [link]
  exact Option.filter_some_neg (by rw [typed]; decide)

theorem untypedLink?_of_last (lacks : context.aliasLink? nominals name = none) :
    context.untypedLink? nominals name = none := by
  unfold untypedLink?
  rw [lacks]
  rfl

theorem aliasAfter?_succ_eq_some_iff :
    context.aliasAfter? nominals (links + 1) start = some second ↔
      ∃ before, context.aliasAfter? nominals links start = some before ∧
        context.aliasLink? nominals before = some second ∧
        context.simpleTypes.contains second = false := by
  unfold aliasAfter?
  rw [follow?_succ_eq_some_iff]
  simp only [untypedLink?_eq_some_iff]

/-! ## Chains of aliases -/

/-- A chain ends as the aliases do, if it has gone through none but names on the way. -/
theorem aliasEnds_aliasChain {visited : List String} {links : Nat} {name : String}
    (indexed : context.elementIndex.contains name = true)
    (reached : context.aliasAfter? nominals links start = some name)
    (passed : ∀ before ∈ visited, ∃ sooner ≤ links,
      context.aliasAfter? nominals sooner start = some before) :
    context.AliasEnds nominals start (context.aliasChain nominals visited name).ending := by
  obtain ⟨id, entered⟩ := Option.isSome_iff_exists.1 indexed
  rw [aliasChain_step, entered]
  dsimp only
  cases leads : nominals.find? id with
  | none =>
      have lacks : context.aliasLink? nominals name = none := by
        rw [aliasLink?_of_indexed entered, leads]
        rfl
      exact .unnamed reached indexed lacks
  | some nominal =>
      have link : context.aliasLink? nominals name = some nominal.name := by
        rw [aliasLink?_of_indexed entered, leads]
        rfl
      dsimp only
      by_cases typed : context.simpleTypes.contains nominal.name = true
      · rw [if_pos typed]
        exact .simple reached link typed
      · have next : context.aliasAfter? nominals (links + 1) start = some nominal.name :=
          aliasAfter?_succ_eq_some_iff.2 ⟨name, reached, link, Bool.of_not_eq_true typed⟩
        rw [if_neg typed]
        by_cases absent : context.elementIndex.contains nominal.name = false
        · rw [if_pos absent]
          exact .outside next absent
        · rw [if_neg absent]
          by_cases again : nominal.name ∈ visited
          · rw [if_pos again]
            obtain ⟨sooner, before, once⟩ := passed nominal.name again
            exact .again (Nat.lt_succ_of_le before) once next
          · rw [if_neg again]
            refine aliasEnds_aliasChain (Bool.of_not_eq_false absent) next ?_
            rintro before (_ | ⟨_, member⟩)
            · exact ⟨links + 1, Nat.le_refl _, next⟩
            · obtain ⟨sooner, within, once⟩ := passed before member
              exact ⟨sooner, Nat.le_succ_of_le within, once⟩
termination_by unvisited context.elementIndex.keys visited
decreasing_by exact unvisitedKeys_cons_lt (Bool.of_not_eq_false absent) again

/-- Aliases end at a last name, or go on for ever. -/
theorem AliasEnds.last_or_endless {ending : AliasEnd}
    (ends : context.AliasEnds nominals start ending) :
    (∃ links last, context.aliasAfter? nominals links start = some last ∧
        context.untypedLink? nominals last = none ∧ ending = context.aliasEndAt nominals last) ∨
      (∀ count, ∃ place, context.aliasAfter? nominals count start = some place) ∧
        ending = .structured := by
  cases ends with
  | @simple links before name reached link typed =>
      refine .inl ⟨links, before, reached, untypedLink?_of_typed link typed, ?_⟩
      unfold aliasEndAt
      rw [if_pos (indexed_of_aliasLink? link), link]
  | @outside links name reached absent =>
      refine .inl ⟨links + 1, name, reached, untypedLink?_of_last (aliasLink?_of_absent absent), ?_⟩
      unfold aliasEndAt
      rw [if_neg (by rw [absent]; decide)]
  | @unnamed links name reached indexed lacks =>
      refine .inl ⟨links, name, reached, untypedLink?_of_last lacks, ?_⟩
      unfold aliasEndAt
      rw [if_pos indexed, lacks]
  | again earlier once twice =>
      exact .inr ⟨exists_follow?_of_cycle earlier once twice, rfl⟩

/-- Where there is a last name, the aliases do not go on. -/
theorem not_endless_of_last {last : String}
    (reached : context.aliasAfter? nominals links start = some last)
    (ends : context.untypedLink? nominals last = none) :
    ¬ ∀ count, ∃ place, context.aliasAfter? nominals count start = some place := by
  intro endless
  obtain ⟨place, further⟩ := endless (links + 1)
  obtain ⟨after, onward⟩ := exists_next_of_lt (Nat.lt_succ_self links) further reached
  rw [ends] at onward
  cases onward

theorem AliasEnds.unique {ending other : AliasEnd} (ends : context.AliasEnds nominals start ending)
    (others : context.AliasEnds nominals start other) : ending = other := by
  rcases ends.last_or_endless with ⟨links, last, reached, stops, rfl⟩ | ⟨endless, rfl⟩
  · rcases others.last_or_endless with ⟨more, second, arrives, halts, rfl⟩ | ⟨endless, rfl⟩
    · rw [eq_of_last reached stops arrives halts]
    · exact absurd endless (not_endless_of_last reached stops)
  · rcases others.last_or_endless with ⟨more, second, arrives, halts, rfl⟩ | ⟨-, rfl⟩
    · exact absurd endless (not_endless_of_last arrives halts)
    · rfl

/-- A chain from a name in the index ends as its aliases do. -/
theorem aliasEnds_iff (indexed : context.elementIndex.contains start = true) {ending : AliasEnd} :
    context.AliasEnds nominals start ending ↔
      (context.aliasChain nominals [start] start).ending = ending := by
  have begun : context.aliasAfter? nominals 0 start = some start := rfl
  have ends : context.AliasEnds nominals start (context.aliasChain nominals [start] start).ending := by
    refine aliasEnds_aliasChain indexed begun fun before member => ?_
    cases List.mem_singleton.1 member
    exact ⟨0, Nat.le_refl 0, begun⟩
  constructor
  · exact ends.unique
  · rintro rfl
    exact ends

/-! ## What an alias resolves to -/

/-- What following the aliases from a name for a node comes to, in terms of the names alone. -/
structure FollowsAliases (context : Context) (nominals : Nominals) (node start : String)
    (followed : Except Error (Option String × Option Facets)) : Prop where
  ends : ∃! ending, context.AliasEnds nominals start ending
  simple : ∀ name, context.AliasEnds nominals start (.simple name) →
    followed.map Prod.fst =
      (context.resolveSimple node name).map fun type => some type.name
  outside : ∀ name, context.AliasEnds nominals start (.outside name) →
    followed.map Prod.fst = .ok (some name)
  structured : context.AliasEnds nominals start .structured ↔ followed.map Prod.fst = .ok none
  facets : ∀ target, followed = .ok target → ∀ facets, target.2 = some facets ↔
    ∃ steps, context.Carries nominals facets steps start

theorem target_of_aliasEnds {ending : AliasEnd} (node : String)
    (indexed : context.elementIndex.contains start = true)
    (ends : context.AliasEnds nominals start ending) :
    (context.followAlias nominals node start).map Prod.fst = context.settleAlias node ending := by
  unfold followAlias
  dsimp only
  rw [(aliasEnds_iff indexed).1 ends]
  cases context.settleAlias node ending <;> rfl

/-- The resolution of an alias is what following it comes to. -/
theorem resolveAlias_eq_map_followAlias (node : String) :
    context.resolveAlias nominals node start =
      (context.followAlias nominals node start).map (context.aliasResolution start) := by
  unfold resolveAlias followAlias settleAlias chainFacets?
  dsimp only
  cases (context.aliasChain nominals [start] start).ending with
  | simple name =>
      dsimp only
      cases resolved : context.resolveSimple node name with
      | error error => rfl
      | ok type =>
          have carried := facets?_of_resolveSimple resolved
          unfold simpleFacets? at carried ⊢
          dsimp only [Except.map, aliasResolution]
          rw [carried, firstFacets?_append_toList]
  | outside name =>
      dsimp only [Except.map, aliasResolution]
      rw [Option.toList_none, List.append_nil, Option.or_none]
  | structured =>
      dsimp only [Except.map, aliasResolution]
      rw [Option.or_none]

end Context

/-- Aliases are followed from a name in the index on, by the nominal types of the declarations: to
the first one that is a simple type, which is then resolved, or to the first one that is not in the
index, or to a structure where a declaration has no nominal type or a name is reached again, be it
the one from which they start or another one. A name that is both that of a simple type and in the
index counts as the simple type. A declaration that is an alias resolves to what this comes to. -/
theorem followsAliases_of_resolveAlias {context : Context} {start : String}
    (indexed : context.elementIndex.contains start = true) (nominals : Nominals) (node : String) :
    context.FollowsAliases nominals node start (context.followAlias nominals node start) ∧
      context.resolveAlias nominals node start =
        (context.followAlias nominals node start).map (context.aliasResolution start) := by
  have target : ∀ ending, context.AliasEnds nominals start ending →
      (context.followAlias nominals node start).map Prod.fst = context.settleAlias node ending :=
    fun _ => Context.target_of_aliasEnds node indexed
  have ends : context.AliasEnds nominals start (context.aliasChain nominals [start] start).ending :=
    (Context.aliasEnds_iff indexed).2 rfl
  refine ⟨⟨⟨_, ends, fun _ others => others.unique ends⟩, fun name => target (.simple name),
    fun name => target (.outside name), ⟨target .structured, ?_⟩, ?_⟩,
    Context.resolveAlias_eq_map_followAlias node⟩
  · intro nothing
    rw [target _ ends] at nothing
    cases ending : (context.aliasChain nominals [start] start).ending with
    | simple name =>
        rw [ending] at nothing
        obtain ⟨type, -, something⟩ := map_eq_ok_iff.1 nothing
        cases something
    | outside name =>
        rw [ending] at nothing
        cases nothing
    | structured => exact ending ▸ ends
  · intro target followed facets
    rw [← Context.chainFacets?_eq_some_iff]
    obtain ⟨name, -, rfl⟩ := map_eq_ok_iff.1 followed
    exact Iff.rfl

/-- Aliases that lead into a cycle, to a simple type whose name an element has as well, and out of the
index. -/
def aliasSchema : Bytes :=
  schemaDocument [
    "<s:element name='a' type='b'/><s:element name='b' type='c'/>",
    "<s:element name='c' type='b'/><s:element name='d' type='e'/>",
    "<s:element name='e' type='T'/><s:element name='T' type='Nowhere'/>",
    "<s:simpleType name='T'><s:restriction base='s:int'><s:enumeration value='1'/>",
    "</s:restriction></s:simpleType><s:element name='f' type='T2'/>"]

/-- From `a` the aliases lead into a cycle on which it is not. From `d` they lead to a simple type,
though there is an element of that name as well, and carry its facets; from `f` they leave the
index. -/
theorem followsAliases_of_resolveAlias_shared :
    ∃ surveyed root nominals, survey .standard aliasSchema = .ok (surveyed, root) ∧
      nominals = Nominals.ofContext surveyed root ∧
      (surveyed.followAlias nominals "n" "a").map Prod.fst = .ok none ∧
      surveyed.followAlias nominals "n" "d" = .ok (some "s:int", some ⟨["1"], none⟩) ∧
      (surveyed.followAlias nominals "n" "f").map Prod.fst = .ok (some "T2") := by
  have computed : surveysFlat .standard aliasSchema
      (fun surveyed root =>
        let nominals := Nominals.ofContext surveyed root
        decide (surveyed.elementIndex.contains "a" = true ∧
          surveyed.elementIndex.contains "f" = true) &&
        decide (surveyed.aliasAfter? nominals 1 "a" = some "b" ∧
          surveyed.aliasAfter? nominals 3 "a" = some "b") &&
        decide (surveyed.aliasAfter? nominals 1 "d" = some "e" ∧
          surveyed.simpleTypes.contains "e" = false ∧
          surveyed.simpleTypes.contains "T" = true ∧
          surveyed.simpleFacets? "T" = some ⟨["1"], none⟩) &&
        (surveyed.elementIndex.find? "d").any (fun id =>
          (surveyed.facetsOf id).isEmpty &&
            (nominals.find? id).any fun nominal => decide (nominal.name = "e")) &&
        (surveyed.elementIndex.find? "e").any (fun id =>
          (surveyed.facetsOf id).isEmpty &&
            (nominals.find? id).any fun nominal => decide (nominal.name = "T")) &&
        (match surveyed.resolveSimple "n" "T" with
        | .ok type => decide (type.name = "s:int")
        | .error _ => false) &&
        decide (surveyed.aliasAfter? nominals 1 "f" = some "T2" ∧
          surveyed.elementIndex.contains "T2" = false)) = true := by
    decide +kernel
  obtain ⟨surveyed, root, surveys, checked⟩ := exists_of_surveysFlat computed
  simp only [Bool.and_eq_true, Option.any_eq_true, decide_eq_true_eq] at checked
  obtain ⟨⟨⟨⟨⟨⟨⟨hasCycle, hasLeaving⟩, once, twice⟩, onward, untyped, typed, constrained⟩,
    first, enteredFirst, bareFirst, toSecond, leadsFirst, isSecond⟩,
    second, enteredSecond, bareSecond, toType, leadsSecond, isType⟩, settled⟩, leaves, absent⟩ :=
    checked
  obtain ⟨cyclic, -⟩ := followsAliases_of_resolveAlias hasCycle (.ofContext surveyed root) "n"
  obtain ⟨leaving, -⟩ := followsAliases_of_resolveAlias hasLeaving (.ofContext surveyed root) "n"
  obtain ⟨shared, -⟩ := followsAliases_of_resolveAlias (Table.contains_of_find? enteredFirst)
    (.ofContext surveyed root) "n"
  have link : surveyed.aliasLink? (.ofContext surveyed root) "e" = some "T" := by
    rw [Context.aliasLink?_of_indexed enteredSecond, leadsSecond, Option.map_some, isType]
  have carries : surveyed.Carries (.ofContext surveyed root) ⟨["1"], none⟩ 1 "d" := by
    refine .through enteredFirst bareFirst leadsFirst (isSecond.symm ▸ untyped) ?_
    rw [isSecond]
    refine .simple enteredSecond bareSecond leadsSecond (isType.symm ▸ typed) ?_
    rw [isType]
    exact constrained
  refine ⟨surveyed, root, _, surveys, rfl, cyclic.structured.1 (.again (by decide) once twice), ?_,
    leaving.outside "T2" (.outside leaves absent)⟩
  have toSimple := shared.simple "T" (.simple onward link typed)
  cases resolved : surveyed.resolveSimple "n" "T" with
  | error error =>
      rw [resolved] at settled
      cases settled
  | ok type =>
      rw [resolved] at settled toSimple
      obtain ⟨⟨name, facets?⟩, followed, isName⟩ := map_eq_ok_iff.1 toSimple
      have found := (shared.facets _ followed _).2 ⟨1, carries⟩
      cases isName
      cases found
      rw [followed, of_decide_eq_true settled]

end XmlSchema
