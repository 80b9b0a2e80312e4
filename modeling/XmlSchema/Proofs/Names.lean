import XmlSchema.Proofs.Chains
import XmlSchema.Proofs.Frame
import XmlSchema.Proofs.Vocabulary

/-!
# What names stand for

A name under which a type is looked for stands for a simple type or for a structure of that name.
`Context.standsFor?` says for which, from the tables, the vocabulary and the nominal types alone,
and resolution answers accordingly, `standsFor?_of_resolve`. Every simple type that a name stands
for is built in, unless it is stray: the base of some simple type, and declared nowhere,
`isBuiltin_or_isStray_of_standsFor?`. A name falls back when the policy has to decide, which under
the strict policy is an error.
-/

namespace XmlSchema

namespace Context

variable (context : Context)

/-- The type to which a chain of simple types leads; where the policy decides, the string type. -/
def simpleTarget (start : String) : String :=
  match (context.simpleChain context.options.limits.simpleTypeHops start).ending with
  | .leaves name => name
  | .union => context.vocabulary.stringType
  | .noBase _ => context.vocabulary.stringType
  | .endless => context.vocabulary.stringType

/-- The simple type for which a name stands. A name without one stands for a structure. -/
def standsFor? (nominals : Nominals) (name : String) : Option String :=
  if context.elementIndex.contains name then
    match (context.aliasChain nominals [name] name).ending with
    | .simple simple =>
        if context.vocabulary.isBuiltin (context.simpleTarget simple) then
          some (context.simpleTarget simple)
        else none
    | .outside outside => if context.vocabulary.isBuiltin outside then some outside else none
    | .structured => none
  else if context.simpleTypes.contains name then some (context.simpleTarget name)
  else if context.vocabulary.isBuiltin name then some name
  else some context.vocabulary.stringType

/-- The simple type for which the declared type of an attribute stands. -/
def attributeTarget (dataType : String) : String :=
  if context.vocabulary.isBuiltin dataType then dataType
  else if context.simpleTypes.contains (Namespace.localPart dataType) then
    context.simpleTarget (Namespace.localPart dataType)
  else context.vocabulary.stringType

/-- Whether a chain of simple types ends where the policy decides. -/
def simpleFallsBack (start : String) : Bool :=
  match (context.simpleChain context.options.limits.simpleTypeHops start).ending with
  | .leaves _ => false
  | .union => false
  | .noBase _ => true
  | .endless => true

/-- Whether the policy decides about a nominal type. -/
def fallsBack (nominals : Nominals) (nominal : Nominal) : Bool :=
  if context.elementIndex.contains nominal.name then
    match (context.aliasChain nominals [nominal.name] nominal.name).ending with
    | .simple simple => context.simpleFallsBack simple
    | .outside _ => false
    | .structured => false
  else if context.simpleTypes.contains nominal.name then context.simpleFallsBack nominal.name
  else !context.vocabulary.isBuiltin nominal.name && nominal.source ≠ .name

/-- Whether the policy decides about the type of an attribute. -/
def attributeFallsBack (dataType : String) : Bool :=
  if context.vocabulary.isBuiltin dataType then false
  else if context.simpleTypes.contains (Namespace.localPart dataType) then
    context.simpleFallsBack (Namespace.localPart dataType)
  else true

/-- A name is stray when a simple type has it as its base and no type bears it. -/
def IsStray (name : String) : Prop :=
  context.simpleType? name = none ∧ context.vocabulary.isBuiltin name = false ∧
    ∃ derived type base, context.simpleType? derived = some type ∧ type.base? = some base ∧
      context.vocabulary.tableName base = name

/-- Every entry of the table of simple types is a simple type. -/
def SimpleTypesKnown : Prop :=
  ∀ name, context.simpleTypes.contains name = true → (context.simpleType? name).isSome

end Context

variable {context : Context}

/-! ## Chains of simple types -/

/-- A chain that leaves the table does so at a name without a simple type, which is either the first
one or the base of a simple type. -/
theorem simpleChain_leaves {hops : Nat} {start name : String}
    (leaves : (context.simpleChain hops start).ending = .leaves name) :
    context.simpleType? name = none ∧
      (name = start ∨ ∃ derived type base, context.simpleType? derived = some type ∧
        type.base? = some base ∧ context.vocabulary.tableName base = name) := by
  induction hops using Nat.strongRecOn generalizing start with
  | ind hops inductionHypothesis =>
      unfold Context.simpleChain at leaves
      cases found : context.simpleType? start with
      | none =>
          rw [found] at leaves
          cases leaves
          exact ⟨found, .inl rfl⟩
      | some type =>
          rw [found] at leaves
          dsimp only at leaves
          cases based : type.base? with
          | none =>
              rw [based] at leaves
              dsimp only at leaves
              split at leaves <;> cases leaves
          | some base =>
              rw [based] at leaves
              dsimp only at leaves
              cases hops with
              | zero =>
                  dsimp only at leaves
                  split at leaves
                  · cases leaves
                  · rename_i absent
                    cases leaves
                    refine ⟨?_, .inr ⟨start, type, base, found, based, rfl⟩⟩
                    simpa using absent
              | succ hops =>
                  obtain ⟨absent, atNext | derived⟩ :=
                    inductionHypothesis hops (Nat.lt_succ_self hops) leaves
                  · exact ⟨absent, .inr ⟨start, type, base, found, based, atNext.symm⟩⟩
                  · exact ⟨absent, .inr derived⟩

/-- A simple type leads to a built-in type or to a stray name. -/
theorem isBuiltin_or_isStray_simpleTarget {start : String}
    (known : (context.simpleType? start).isSome) :
    context.vocabulary.isBuiltin (context.simpleTarget start) = true ∨
      context.IsStray (context.simpleTarget start) := by
  unfold Context.simpleTarget
  split
  · rename_i name leaves
    obtain ⟨absent, rfl | derived⟩ := simpleChain_leaves leaves
    · rw [absent] at known
      cases known
    · cases builtin : context.vocabulary.isBuiltin name with
      | true => exact .inl rfl
      | false => exact .inr ⟨absent, builtin, derived⟩
  · exact .inl (Vocabulary.isBuiltin_stringType _)
  · exact .inl (Vocabulary.isBuiltin_stringType _)
  · exact .inl (Vocabulary.isBuiltin_stringType _)

/-- A simple type for which a name stands is built in or stray. -/
theorem isBuiltin_or_isStray_of_standsFor? (known : context.SimpleTypesKnown)
    {nominals : Nominals} {name type : String}
    (stands : context.standsFor? nominals name = some type) :
    context.vocabulary.isBuiltin type = true ∨ context.IsStray type := by
  unfold Context.standsFor? at stands
  split at stands
  · split at stands
    · split at stands
      · rename_i builtin
        cases stands
        exact .inl builtin
      · cases stands
    · split at stands
      · rename_i builtin
        cases stands
        exact .inl builtin
      · cases stands
    · cases stands
  · split at stands
    · rename_i declared
      cases stands
      exact isBuiltin_or_isStray_simpleTarget (known name declared)
    · split at stands
      · rename_i builtin
        cases stands
        exact .inl builtin
      · cases stands
        exact .inl (Vocabulary.isBuiltin_stringType _)

/-- The simple type for which the type of an attribute stands is built in or stray. -/
theorem isBuiltin_or_isStray_attributeTarget (known : context.SimpleTypesKnown)
    (dataType : String) :
    context.vocabulary.isBuiltin (context.attributeTarget dataType) = true ∨
      context.IsStray (context.attributeTarget dataType) := by
  unfold Context.attributeTarget
  split
  · rename_i builtin
    exact .inl builtin
  · split
    · rename_i declared
      exact isBuiltin_or_isStray_simpleTarget (known _ declared)
    · exact .inl (Vocabulary.isBuiltin_stringType _)

/-- No stray name is built in. -/
theorem isBuiltin_iff_not_isStray {type : String}
    (either : context.vocabulary.isBuiltin type = true ∨ context.IsStray type) :
    context.vocabulary.isBuiltin type = true ↔ ¬ context.IsStray type := by
  constructor
  · rintro builtin ⟨-, notBuiltin, -⟩
    rw [builtin] at notBuiltin
    cases notBuiltin
  · exact either.resolve_right

/-! ## Resolution -/

theorem stringType_of_fallBack {node name : String} {cause : SemanticCause}
    (given : context.fallBack node cause = .ok name) : name = context.vocabulary.stringType := by
  unfold Context.fallBack at given
  split at given
  · cases given
    rfl
  · cases given

theorem simpleTarget_of_resolveSimple {node start : String} {type : ResolvedType}
    (resolved : context.resolveSimple node start = .ok type) :
    type.name = context.simpleTarget start := by
  obtain ⟨name, settled, rfl⟩ := map_eq_ok_iff.1 resolved
  unfold Context.simpleTarget
  cases ending : (context.simpleChain context.options.limits.simpleTypeHops start).ending with
  | leaves last =>
      rw [ending] at settled
      cases settled
      rfl
  | union =>
      rw [ending] at settled
      cases settled
      rfl
  | noBase last =>
      rw [ending] at settled
      exact stringType_of_fallBack settled
  | endless =>
      rw [ending] at settled
      exact stringType_of_fallBack settled

theorem standsFor?_of_resolveAlias {nominals : Nominals} {node name : String}
    {resolution : Resolution}
    (indexed : context.elementIndex.contains name = true)
    (resolved : context.resolveAlias nominals node name = .ok resolution) :
    resolution.isStructured = (context.standsFor? nominals name).isNone ∧
      resolution.type.name = (context.standsFor? nominals name).getD name := by
  unfold Context.resolveAlias at resolved
  unfold Context.standsFor?
  rw [if_pos indexed]
  dsimp only at resolved
  cases ending : (context.aliasChain nominals [name] name).ending with
  | simple simple =>
      rw [ending] at resolved
      obtain ⟨type, found, same⟩ := map_eq_ok_iff.1 resolved
      dsimp only at same ⊢
      rw [simpleTarget_of_resolveSimple found] at same
      split at same
      · rename_i builtin
        rw [if_pos builtin, ← same]
        exact ⟨rfl, rfl⟩
      · rename_i notBuiltin
        rw [if_neg notBuiltin, ← same]
        exact ⟨rfl, rfl⟩
  | outside outside =>
      rw [ending] at resolved
      have same := Except.ok.inj resolved
      dsimp only at same ⊢
      split at same
      · rename_i builtin
        rw [if_pos builtin, ← same]
        exact ⟨rfl, rfl⟩
      · rename_i notBuiltin
        rw [if_neg notBuiltin, ← same]
        exact ⟨rfl, rfl⟩
  | structured =>
      rw [ending] at resolved
      cases resolved
      exact ⟨rfl, rfl⟩

/-- Resolution finds the simple type for which a nominal type stands, or else a structure of that
name. -/
theorem standsFor?_of_resolve {nominals : Nominals} {node : String} {nominal : Nominal}
    {resolution : Resolution} (resolved : context.resolve nominals node nominal = .ok resolution) :
    resolution.isStructured = (context.standsFor? nominals nominal.name).isNone ∧
      resolution.type.name = (context.standsFor? nominals nominal.name).getD nominal.name := by
  unfold Context.resolve at resolved
  dsimp only at resolved
  by_cases indexed : context.elementIndex.contains nominal.name
  · rw [if_pos indexed] at resolved
    exact standsFor?_of_resolveAlias indexed resolved
  · unfold Context.standsFor?
    rw [if_neg indexed] at resolved ⊢
    by_cases simple : context.simpleTypes.contains nominal.name
    · rw [if_pos simple] at resolved ⊢
      obtain ⟨type, found, rfl⟩ := map_eq_ok_iff.1 resolved
      exact ⟨rfl, simpleTarget_of_resolveSimple found⟩
    · rw [if_neg simple] at resolved ⊢
      by_cases builtin : context.vocabulary.isBuiltin nominal.name
      · rw [if_pos builtin] at resolved ⊢
        cases resolved
        exact ⟨rfl, rfl⟩
      · rw [if_neg builtin] at resolved ⊢
        split at resolved
        · cases resolved
          exact ⟨rfl, rfl⟩
        · obtain ⟨name, given, rfl⟩ := map_eq_ok_iff.1 resolved
          exact ⟨rfl, stringType_of_fallBack given⟩

theorem attributeTarget_of_resolveAttributeType {place dataType : String} {type : ResolvedType}
    (resolved : context.resolveAttributeType place dataType = .ok type) :
    type.name = context.attributeTarget dataType := by
  unfold Context.resolveAttributeType at resolved
  unfold Context.attributeTarget
  dsimp only at resolved
  by_cases builtin : context.vocabulary.isBuiltin dataType
  · rw [if_pos builtin] at resolved ⊢
    cases resolved
    rfl
  · rw [if_neg builtin] at resolved ⊢
    by_cases simple : context.simpleTypes.contains (Namespace.localPart dataType)
    · rw [if_pos simple] at resolved ⊢
      exact simpleTarget_of_resolveSimple resolved
    · rw [if_neg simple] at resolved ⊢
      obtain ⟨name, given, rfl⟩ := map_eq_ok_iff.1 resolved
      exact stringType_of_fallBack given

/-! ## Where the policy decides -/

/-- The strict policy refuses with a semantic error. -/
theorem fallBack_strict (strict : context.options.fallback = .strict) (node : String)
    (cause : SemanticCause) : context.fallBack node cause = .error (.semantic ⟨node, cause⟩) := by
  unfold Context.fallBack
  rw [strict]

theorem resolveSimple_strict (strict : context.options.fallback = .strict) {node start : String}
    (falls : context.simpleFallsBack start = true) :
    ∃ problem, context.resolveSimple node start = .error (.semantic problem) := by
  unfold Context.simpleFallsBack at falls
  unfold Context.resolveSimple
  dsimp only
  split at falls
  · cases falls
  · cases falls
  · rename_i name noBase
    rw [noBase]
    unfold Context.settleChain
    dsimp only
    rw [fallBack_strict strict]
    exact ⟨_, rfl⟩
  · rename_i endless
    rw [endless]
    unfold Context.settleChain
    dsimp only
    rw [fallBack_strict strict]
    exact ⟨_, rfl⟩

/-- Under the strict policy a nominal type that falls back is a semantic error. -/
theorem resolve_strict (strict : context.options.fallback = .strict) {nominals : Nominals}
    {node : String} {nominal : Nominal} (falls : context.fallsBack nominals nominal = true) :
    ∃ problem, context.resolve nominals node nominal = .error (.semantic problem) := by
  unfold Context.fallsBack at falls
  unfold Context.resolve
  dsimp only
  by_cases indexed : context.elementIndex.contains nominal.name
  · rw [if_pos indexed] at falls ⊢
    unfold Context.resolveAlias
    dsimp only
    cases ending : (context.aliasChain nominals [nominal.name] nominal.name).ending with
    | simple simple =>
        rw [ending] at falls
        have refusal : ∃ problem,
            context.resolveSimple node simple = .error (.semantic problem) :=
          resolveSimple_strict strict falls
        obtain ⟨problem, refused⟩ := refusal
        dsimp only
        rw [refused]
        exact ⟨problem, rfl⟩
    | outside outside =>
        rw [ending] at falls
        cases falls
    | structured =>
        rw [ending] at falls
        cases falls
  · rw [if_neg indexed] at falls ⊢
    by_cases simple : context.simpleTypes.contains nominal.name
    · rw [if_pos simple] at falls ⊢
      obtain ⟨problem, refused⟩ := resolveSimple_strict strict falls
      rw [refused]
      exact ⟨problem, rfl⟩
    · rw [if_neg simple] at falls ⊢
      rw [Bool.and_eq_true] at falls
      obtain ⟨notBuiltin, declared⟩ := falls
      rw [if_neg (by simpa using notBuiltin), if_neg (by simpa using declared),
        fallBack_strict strict]
      exact ⟨_, rfl⟩

/-- Under the strict policy an attribute whose type falls back is a semantic error. -/
theorem resolveAttributeType_strict (strict : context.options.fallback = .strict)
    {place dataType : String} (falls : context.attributeFallsBack dataType = true) :
    ∃ problem, context.resolveAttributeType place dataType = .error (.semantic problem) := by
  unfold Context.attributeFallsBack at falls
  unfold Context.resolveAttributeType
  dsimp only
  by_cases builtin : context.vocabulary.isBuiltin dataType
  · rw [if_pos builtin] at falls
    cases falls
  · rw [if_neg builtin] at falls ⊢
    by_cases simple : context.simpleTypes.contains (Namespace.localPart dataType)
    · rw [if_pos simple] at falls ⊢
      exact resolveSimple_strict strict falls
    · rw [if_neg simple, fallBack_strict strict]
      exact ⟨_, rfl⟩

/-! ## Names along a frame -/

namespace Frame

variable {change : Change} {before after : Context} (frame : Frame change before after)

include frame in
theorem namedSimpleType? (name : String) : after.simpleType? name = before.simpleType? name := by
  unfold Context.simpleType?
  rw [frame.simpleTypes]
  exact congrArg _ (funext frame.simpleType?)

include frame in
theorem simpleChain (hops : Nat) (name : String) :
    after.simpleChain hops name = before.simpleChain hops name :=
  Context.simpleChain_congr frame.vocabulary frame.namedSimpleType? hops name

include frame in
theorem simpleTarget (start : String) : after.simpleTarget start = before.simpleTarget start := by
  unfold Context.simpleTarget
  rw [frame.simpleChain, frame.options, frame.vocabulary]

include frame in
/-- What a name stands for is decided by the tables, which no pass after the survey changes. -/
theorem standsFor? (nominals : Nominals) (name : String) :
    after.standsFor? nominals name = before.standsFor? nominals name := by
  unfold Context.standsFor?
  rw [frame.elementIndex, frame.simpleTypes, frame.vocabulary, frame.simpleTarget,
    (Context.aliasChain_congr frame.elementIndex frame.simpleTypes nominals [name] name).1,
    funext frame.simpleTarget]

include frame in
theorem attributeTarget (dataType : String) :
    after.attributeTarget dataType = before.attributeTarget dataType := by
  unfold Context.attributeTarget
  rw [frame.simpleTypes, frame.vocabulary, frame.simpleTarget]

include frame in
theorem simpleFallsBack (start : String) :
    after.simpleFallsBack start = before.simpleFallsBack start := by
  unfold Context.simpleFallsBack
  rw [frame.simpleChain, frame.options]

include frame in
theorem fallsBack (nominals : Nominals) (nominal : Nominal) :
    after.fallsBack nominals nominal = before.fallsBack nominals nominal := by
  unfold Context.fallsBack
  rw [frame.elementIndex, frame.simpleTypes, frame.vocabulary, frame.simpleFallsBack,
    (Context.aliasChain_congr frame.elementIndex frame.simpleTypes nominals _ _).1,
    funext frame.simpleFallsBack]

include frame in
theorem attributeFallsBack (dataType : String) :
    after.attributeFallsBack dataType = before.attributeFallsBack dataType := by
  unfold Context.attributeFallsBack
  rw [frame.simpleTypes, frame.vocabulary, frame.simpleFallsBack]

include frame in
theorem isStray_iff (name : String) : after.IsStray name ↔ before.IsStray name := by
  unfold Context.IsStray
  rw [frame.vocabulary, funext frame.namedSimpleType?]

end Frame

end XmlSchema
