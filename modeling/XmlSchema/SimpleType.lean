import XmlSchema.Facets
import XmlSchema.Table

/-!
# Simple types

A simple type restricts a base, lists an item type, or joins member types.
-/

namespace XmlSchema

/-- A simple type definition. -/
structure SimpleType where
  name : String
  /-- The base of the restriction, or the item type of the list. -/
  base? : Option String
  isList : Bool
  members : List String
  facets : Facets
  collapsesSpace : Bool
  default? : Option String
  restrictionAttributes : Table String
  documentation : String
deriving DecidableEq

def SimpleType.ofName (name : String) : SimpleType :=
  { name, base? := none, isList := false, members := [], facets := .empty,
    collapsesSpace := false, default? := none, restrictionAttributes := .empty,
    documentation := "" }

end XmlSchema
