import XmlSchema.Construct
import XmlSchema.Context

/-!
# Relaxations of the options

A relaxation exchanges the options of a compilation for options whose limits allow everything that
the limits before allowed, with the same renames. A compilation under the new options goes through
the same contexts but for the options that they keep: `Context.relax`. To follow another policy is a
relaxation, and so is to raise limits.
-/

namespace XmlSchema

/-! ## Limits within limits -/

/-- Limits of which no bound is above that of others, and which follow chains of simple types just
as far. -/
structure Limits.Within (limits wider : Limits) : Prop where
  xmlDepth : limits.xmlDepth ≤ wider.xmlDepth
  xmlSize : limits.xmlSize ≤ wider.xmlSize
  baseDepth : limits.baseDepth ≤ wider.baseDepth
  simpleTypeHops : wider.simpleTypeHops = limits.simpleTypeHops
  groupDepth : limits.groupDepth ≤ wider.groupDepth

namespace Limits

variable {limits wider : Limits} {measure : Nat}

theorem Within.refl (limits : Limits) : limits.Within limits where
  xmlDepth := Nat.le_refl _
  xmlSize := Nat.le_refl _
  baseDepth := Nat.le_refl _
  simpleTypeHops := rfl
  groupDepth := Nat.le_refl _

/-- The limits raised to the bounds of others. How far chains of simple types are followed stays as
it is. -/
def raise (limits others : Limits) : Limits where
  xmlDepth := max limits.xmlDepth others.xmlDepth
  xmlSize := max limits.xmlSize others.xmlSize
  baseDepth := max limits.baseDepth others.baseDepth
  simpleTypeHops := limits.simpleTypeHops
  groupDepth := max limits.groupDepth others.groupDepth

theorem within_raise (limits others : Limits) : limits.Within (limits.raise others) where
  xmlDepth := Nat.le_max_left _ _
  xmlSize := Nat.le_max_left _ _
  baseDepth := Nat.le_max_left _ _
  simpleTypeHops := rfl
  groupDepth := Nat.le_max_left _ _

theorem Within.raise_eq (within : limits.Within wider) : limits.raise wider = wider := by
  unfold raise
  rw [Nat.max_eq_right within.xmlDepth, Nat.max_eq_right within.xmlSize,
    Nat.max_eq_right within.baseDepth, Nat.max_eq_right within.groupDepth,
    ← within.simpleTypeHops]

section Checks

variable (within : limits.Within wider)

include within in
theorem Within.checkDepth (passed : limits.checkDepth measure = .ok ()) :
    wider.checkDepth measure = .ok () := by
  have bound := within.xmlDepth
  unfold Limits.checkDepth at passed ⊢
  split at passed
  · cases passed
  · rw [if_neg (by omega)]

include within in
theorem Within.checkGroups (passed : limits.checkGroups measure = .ok ()) :
    wider.checkGroups measure = .ok () := by
  have bound := within.groupDepth
  unfold Limits.checkGroups at passed ⊢
  split at passed
  · cases passed
  · rw [if_neg (by omega)]

include within in
theorem Within.checkSize (passed : limits.checkSize measure = .ok ()) :
    wider.checkSize measure = .ok () := by
  have bound := within.xmlSize
  unfold Limits.checkSize at passed ⊢
  split at passed
  · cases passed
  · rw [if_neg (by omega)]

end Checks

end Limits

/-! ## Relaxations -/

/-- A change of options that keeps the renames and refuses nothing that was allowed. -/
structure Relaxation where
  apply : Options → Options
  within : ∀ options : Options, options.limits.Within (apply options).limits
  renames : ∀ options : Options, (apply options).renames = options.renames

namespace Relaxation

/-- To follow a policy. -/
def policy (fallback : Fallback) : Relaxation where
  apply := fun options => { options with fallback }
  within := fun options => .refl options.limits
  renames := fun _ => rfl

/-- To raise limits to others. -/
def raising (others : Limits) : Relaxation where
  apply := fun options => { options with limits := options.limits.raise others }
  within := fun options => options.limits.within_raise others
  renames := fun _ => rfl

/-- Whether the lenient policy stays lenient. -/
def KeepsLenient (relaxation : Relaxation) : Prop :=
  ∀ options : Options, options.fallback = .lenient → (relaxation.apply options).fallback = .lenient

theorem keepsLenient_lenient : (policy .lenient).KeepsLenient := fun _ _ => rfl

theorem keepsLenient_raising (others : Limits) : (raising others).KeepsLenient :=
  fun _ lenient => lenient

end Relaxation

namespace Context

/-- The context of a compilation under relaxed options. -/
def relax (context : Context) (relaxation : Relaxation) : Context :=
  { context with options := relaxation.apply context.options }

/-- The context of a compilation that follows another policy. -/
def withFallback (context : Context) (fallback : Fallback) : Context :=
  { context with options := { context.options with fallback } }

theorem relax_policy (context : Context) (fallback : Fallback) :
    context.relax (.policy fallback) = context.withFallback fallback := rfl

theorem simpleTypeHops_relax (context : Context) (relaxation : Relaxation) :
    (context.relax relaxation).options.limits.simpleTypeHops =
      context.options.limits.simpleTypeHops :=
  (relaxation.within context.options).simpleTypeHops

theorem renames_relax (context : Context) (relaxation : Relaxation) :
    (context.relax relaxation).options.renames = context.options.renames :=
  relaxation.renames context.options

end Context

end XmlSchema
