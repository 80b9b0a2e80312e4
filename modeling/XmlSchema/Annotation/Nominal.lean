import XmlSchema.Annotation.Walk

/-!
# Nominal types

The nominal type of a declaration is the name under which its type has to be looked for: the type it
declares, else the element to which it refers, else its own name. Since resolution overwrites types,
it reads nominal types from the nodes as they were before.
-/

namespace XmlSchema

/-- Where a nominal type comes from. -/
inductive NominalSource where
  | type
  | reference
  | name
deriving DecidableEq

/-- The name under which a type has to be looked for. -/
structure Nominal where
  name : String
  source : NominalSource
deriving DecidableEq

/-- The nominal type of a declaration, which only a nameless one lacks. -/
def Element.nominal? (element : Element) : Option Nominal :=
  match element.writtenType?, element.type?, element.reference? with
  | some _, some type, _ => some ⟨type, .type⟩
  | _, _, some reference => some ⟨reference, .reference⟩
  | _, _, none => if element.name = "" then none else some ⟨element.name, .name⟩

/-- The nominal types of some declarations at one time. -/
structure Nominals where
  arena : Arena
  declarations : List NodeId

namespace Nominals

/-- The nominal types of the declarations below a root, as they are now. -/
def ofContext (context : Context) (root : NodeId) : Nominals := ⟨context.arena, context.walk root⟩

def find? (nominals : Nominals) (id : NodeId) : Option Nominal :=
  if id ∈ nominals.declarations then (nominals.arena.element? id).bind Element.nominal? else none

end Nominals

end XmlSchema
