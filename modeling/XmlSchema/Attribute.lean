import XmlSchema.Facets
import XmlSchema.Identifier
import XmlSchema.Text.Blank

/-!
# Attribute declarations

An attribute of an element or of an attribute group, and the groups themselves.
-/

namespace XmlSchema

/-- Whether an attribute has to be present. -/
inductive AttributeUse where
  | optional
  | required
  | prohibited
deriving DecidableEq

/-- The use that a value asks for; any value but the two others leaves the attribute optional. -/
def AttributeUse.ofValue (value : String) : AttributeUse :=
  let word := Text.trim value
  if word = "required" then .required
  else if word = "prohibited" then .prohibited
  else .optional

def AttributeUse.word : AttributeUse → String
  | .optional => "optional"
  | .required => "required"
  | .prohibited => "prohibited"

/-- An attribute declaration. -/
structure Attribute where
  name : String
  cleanName : String
  /-- The type as declared, or the base of an inner restriction. -/
  dataType : String
  resolvedType? : Option String
  usage : AttributeUse
  default? : Option String
  reference? : Option String
  facets : Facets
deriving DecidableEq

namespace Attribute

def ofType (name dataType : String) : Attribute :=
  { name, cleanName := clean name, dataType, resolvedType? := none, usage := .optional,
    default? := none, reference? := none, facets := .empty }

/-- The resolved type where it is known, and else the declared one. -/
def typeName (declaration : Attribute) : String :=
  declaration.resolvedType?.getD declaration.dataType

def rename (declaration : Attribute) (name : String) : Attribute :=
  { declaration with name, cleanName := clean name }

end Attribute

/-- A named group of attributes. -/
structure AttributeGroup where
  name : String
  attributes : Table Attribute
  references : List String
deriving DecidableEq

/-- The group of a name without members. -/
def AttributeGroup.ofName (name : String) : AttributeGroup := ⟨name, .empty, []⟩

end XmlSchema
