/-!
# Constructs

The elements of the schema language that matter to the reading of a schema, each with its local
name. All other markup is `other`.
-/

namespace XmlSchema

/-- What a tag of a schema document stands for. -/
inductive Construct where
  | schema
  | element
  | complexType
  | any
  | group
  | sequence
  | choice
  | all
  | attribute
  | attributeGroup
  | anyAttribute
  | simpleContent
  | complexContent
  | extension
  | simpleType
  | restriction
  | enumeration
  | minInclusive
  | maxInclusive
  | whiteSpace
  | union
  | list
  | annotation
  | documentation
  /-- Anything else, markup inside documentation included. -/
  | other
deriving DecidableEq

namespace Construct

/-- The constructs with a name, and their names. -/
def named : List (String × Construct) :=
  [("schema", .schema), ("element", .element), ("complexType", .complexType), ("any", .any),
   ("group", .group), ("sequence", .sequence), ("choice", .choice), ("all", .all),
   ("attribute", .attribute), ("attributeGroup", .attributeGroup),
   ("anyAttribute", .anyAttribute), ("simpleContent", .simpleContent),
   ("complexContent", .complexContent), ("extension", .extension), ("simpleType", .simpleType),
   ("restriction", .restriction), ("enumeration", .enumeration),
   ("minInclusive", .minInclusive), ("maxInclusive", .maxInclusive),
   ("whiteSpace", .whiteSpace), ("union", .union), ("list", .list),
   ("annotation", Construct.annotation), ("documentation", .documentation)]

def ofLocalName (name : String) : Construct := (named.lookup name).getD .other

/-- The local name of a construct; `other` has none. -/
def localName? (construct : Construct) : Option String :=
  (named.find? (·.2 == construct)).map Prod.fst

/-- The name of a construct in messages: its local name with a capital. -/
def label (construct : Construct) : String := (construct.localName?.getD "other").capitalize

example : named.all fun (name, construct) =>
    ofLocalName name == construct && construct.localName? == some name := by decide +kernel

end Construct

end XmlSchema
