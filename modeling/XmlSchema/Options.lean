import XmlSchema.Identifier
import XmlSchema.Limits

/-!
# Options of a compilation
-/

namespace XmlSchema

/-- What becomes of a declaration whose type cannot be resolved. -/
inductive Fallback where
  | lenient
  | strict
deriving DecidableEq

/-- The options of a compilation. -/
structure Options where
  limits : Limits
  fallback : Fallback
  renames : Renames
deriving DecidableEq

/-- The options in effect unless others are given. -/
def Options.standard : Options := ⟨.standard, .lenient, .standard⟩

end XmlSchema
