import XmlSchema.Context

/-!
# Halting with the state reached

A step that cannot go on says why and gives back the context as it was left, since what was entered
into it before stays entered.
-/

namespace XmlSchema

/-- A cause that ends an activity and the context at that point. -/
structure Halt (ε : Type) where
  cause : ε
  context : Context

end XmlSchema
