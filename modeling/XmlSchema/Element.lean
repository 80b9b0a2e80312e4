import XmlSchema.Attribute
import XmlSchema.Vocabulary

/-!
# Declarations of elements and of structured types

One record serves the schema itself, its elements and complex types, its groups and its wildcards.
Reading a document fills what the tags say; annotation adds what follows from it. `Element.ofTag` is
the record of a tag before its content is read.
-/

namespace XmlSchema

/-- A handle of a node: its place in the order in which nodes were made. -/
structure NodeId where
  index : Nat
deriving DecidableEq

/-- The construct behind a declaration. -/
inductive ElementKind where
  | schema
  | element
  | complexType
  /-- A group, whether defined or referred to. -/
  | group
  | attributeGroup
  | any
deriving DecidableEq

/-- The bounds that a choice declares, as written. -/
structure ChoiceBounds where
  minOccurs? : Option String
  maxOccurs? : Option String
deriving DecidableEq

/-- A declaration. -/
structure Element where
  kind : ElementKind
  /-- The name, for which a type or a reference may stand in. -/
  name : String
  /-- The name as an identifier, with reserved words renamed. -/
  cleanName : String
  /-- The name as an identifier, before renaming. -/
  plainCleanName : String
  /-- The attributes of the tag, together with those of a complex type inside it. -/
  tagAttributes : Table String
  /-- The type referred to, and after annotation the resolved type. -/
  type? : Option String
  writtenType? : Option String
  /-- The element referred to, without its namespace. -/
  reference? : Option String
  base? : Option String
  restrictedBase? : Option String
  restrictionAttributes : Table String
  minOccurs : UInt32
  maxOccurs : UInt32
  isOptional : Bool
  choice? : Option ChoiceBounds
  isAbstract : Bool
  isMixed : Bool
  /-- Whether the declaration resolves to a structure instead of a simple type. -/
  isComplex : Bool
  isTopLevel : Bool
  /-- Whether the tag names neither a type nor an element to refer to. -/
  definesContent : Bool
  anyAttribute : Bool
  simpleContent : Bool
  isList : Bool
  collapsesSpace : Bool
  isExtended : Bool
  mixedMismatch : Bool
  simpleType? : Option String
  inlineSimpleType : Bool
  /-- The declarations inside this one, in document order. -/
  children : List NodeId
  attributes : Table Attribute
  openGroup? : Option AttributeGroup
  attributeGroupRefs : List String
  groupRef? : Option String
  facets : Facets
  /-- The simple types behind the declaration, the nearest first. -/
  simpleBases : List String
  default? : Option String
  documentation : String
deriving DecidableEq

/-- The maximum that stands for no bound. -/
def unboundedOccurs : UInt32 := 99999

def wildcardType : String := "__ANY__"

def isTrue (value : String) : Bool :=
  let word := Text.trim value
  word = "1" || Text.equalIgnoringCase word "true"

namespace Element

/-- The declaration of a tag. A declaration without a name is called by its type or by what it
refers to, and one without a type has what it refers to as its type. -/
def ofTag (kind : ElementKind) (tagAttributes : Table String) (vocabulary : Vocabulary) :
    Element :=
  let reference? := (tagAttributes.find? "ref").map Namespace.localPart
  let namedType? := (tagAttributes.find? "type").map fun type =>
    if vocabulary.qualifies type then type else Namespace.localPart type
  let ownName := ((tagAttributes.find? "name").map Namespace.localPart).getD ""
  let name := if ownName = "" then ((namedType?.or reference?).getD "") else ownName
  { kind, name
    cleanName := ""
    plainCleanName := ""
    tagAttributes := if name = "" then tagAttributes else tagAttributes.insert "name" name
    type? := if kind = .any then some wildcardType else namedType?.or reference?
    writtenType? := tagAttributes.find? "type"
    reference?
    base? := none
    restrictedBase? := none
    restrictionAttributes := .empty
    minOccurs := 1
    maxOccurs := 1
    isOptional := false
    choice? := none
    isAbstract := (tagAttributes.find? "abstract").any isTrue
    isMixed := false
    isComplex := false
    isTopLevel := false
    definesContent := false
    anyAttribute := false
    simpleContent := false
    isList := false
    collapsesSpace := false
    isExtended := false
    mixedMismatch := false
    simpleType? := none
    inlineSimpleType := false
    children := []
    attributes := .empty
    openGroup? := none
    attributeGroupRefs := []
    groupRef? := none
    facets := .empty
    simpleBases := []
    default? := tagAttributes.find? "default"
    documentation := "" }

def isWildcard (element : Element) : Bool := element.type? = some wildcardType

/-- Records a simple type behind the declaration, once. -/
def addSimpleBase (element : Element) (name : String) : Element :=
  if name ∈ element.simpleBases then element
  else { element with simpleBases := element.simpleBases ++ [name] }

def isUnbounded (element : Element) : Bool := element.maxOccurs ≥ unboundedOccurs

end Element

end XmlSchema
