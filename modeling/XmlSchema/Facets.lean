import XmlSchema.Decimal

/-!
# Facets

What a restriction allows: an ordered set of literal values, a range of decimals, or both recorded
side by side. `Facets.restriction` decides what the record means: literal values take precedence
over a range.
-/

namespace XmlSchema

/-- Inclusive bounds, either of which may be missing. -/
structure DecimalRange where
  minimum? : Option Decimal
  maximum? : Option Decimal
deriving DecidableEq

/-- The range without bounds. -/
def DecimalRange.unbounded : DecimalRange := ⟨none, none⟩

/-- What the facets of a declaration mean. -/
inductive Restriction where
  | enumeration (values : List String)
  | range (bounds : DecimalRange)
  | unconstrained
deriving DecidableEq

/-- The facets collected for a declaration. -/
structure Facets where
  enumeration : List String
  range? : Option DecimalRange
deriving DecidableEq

namespace Facets

/-- No facets. -/
def empty : Facets := ⟨[], none⟩

instance : Inhabited Facets := ⟨empty⟩

/-- Whether no facet was collected. -/
def isEmpty (facets : Facets) : Bool := facets.enumeration.isEmpty && facets.range?.isNone

/-- Adds a literal value unless it is there already. -/
def allow (facets : Facets) (value : String) : Facets :=
  if value ∈ facets.enumeration then facets
  else { facets with enumeration := facets.enumeration ++ [value] }

/-- Sets the lower bound. -/
def setMinimum (facets : Facets) (bound : Decimal) : Facets :=
  { facets with range? := some { facets.range?.getD .unbounded with minimum? := some bound } }

/-- Sets the upper bound. -/
def setMaximum (facets : Facets) (bound : Decimal) : Facets :=
  { facets with range? := some { facets.range?.getD .unbounded with maximum? := some bound } }

def restriction (facets : Facets) : Restriction :=
  if facets.enumeration.isEmpty then
    match facets.range? with
    | some bounds => .range bounds
    | none => .unconstrained
  else .enumeration facets.enumeration

/-- These facets, or others where there are none. -/
def orElse (facets others : Facets) : Facets := if facets.isEmpty then others else facets

end Facets

end XmlSchema
