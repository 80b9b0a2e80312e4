import XmlSchema.Model

/-!
# Dumps of models

A dump is a flat picture of a model for other programs: what is in its tables, in their order, with
types and names as text.
-/

namespace XmlSchema

namespace Dump

/-- A restriction. -/
structure RestrictionEntry where
  /-- The word for what restricts: an enumeration or a range. -/
  kind : String
  minimum? : Option String
  maximum? : Option String
  values? : Option (List String)
deriving DecidableEq

/-- A child of a declaration. -/
structure ChildEntry where
  name : String
  type : String
  minOccurs : UInt32
  /-- The maximum, if there is one. -/
  maxOccurs? : Option UInt32
deriving DecidableEq

/-- An attribute. -/
structure AttributeEntry where
  name : String
  type : String
  usage : String
  default? : Option String
  restriction? : Option RestrictionEntry
deriving DecidableEq

/-- A declaration in the index. -/
structure ElementEntry where
  name : String
  /-- The name with the namespace in braces before it. -/
  qualifiedName : String
  cleanName : String
  type? : Option String
  isComplex : Bool
  base? : Option String
  minOccurs : UInt32
  /-- The maximum, if there is one. -/
  maxOccurs? : Option UInt32
  isMixed : Bool
  mixedMismatch : Bool
  isAbstract : Bool
  isExtended : Bool
  restriction? : Option RestrictionEntry
  attributes : List AttributeEntry
  children : List ChildEntry
deriving DecidableEq

/-- A simple type. -/
structure SimpleTypeEntry where
  name : String
  base? : Option String
  isList : Bool
  members : List String
  collapsesSpace : Bool
  restriction? : Option RestrictionEntry
deriving DecidableEq

/-- A substitution group. -/
structure SubstitutionEntry where
  head : String
  members : List String
deriving DecidableEq

end Dump

open Dump

/-- A flat picture of a model. -/
structure Dump where
  targetNamespace? : Option String
  qualifier : String
  elements : List ElementEntry
  simpleTypes : List SimpleTypeEntry
  substitutionGroups : List SubstitutionEntry
  warnings : List String
deriving DecidableEq

namespace Dump

def empty : Dump := ⟨none, "", [], [], [], []⟩

/-- The first declaration of a name. -/
def element? (dump : Dump) (name : String) : Option ElementEntry :=
  dump.elements.find? (·.name == name)

/-- The entry of a restriction, if it restricts anything. -/
def RestrictionEntry.ofRestriction? : Restriction → Option RestrictionEntry
  | .enumeration values => some ⟨"Enumeration", none, none, some values⟩
  | .range bounds =>
      some ⟨"Range", bounds.minimum?.map Decimal.render, bounds.maximum?.map Decimal.render, none⟩
  | .unconstrained => none

/-- A maximum, unless it stands for no bound. -/
def boundedMaximum? (maximum : UInt32) : Option UInt32 :=
  if maximum < unboundedOccurs then some maximum else none

def ChildEntry.ofElement (element : Element) : ChildEntry where
  name := element.name
  type := element.type?.getD ""
  minOccurs := element.minOccurs
  maxOccurs? := boundedMaximum? element.maxOccurs

def AttributeEntry.ofAttribute (declaration : Attribute) : AttributeEntry where
  name := declaration.name
  type := declaration.typeName
  usage := declaration.usage.word
  default? := declaration.default?
  restriction? := RestrictionEntry.ofRestriction? declaration.facets.restriction

def ElementEntry.ofView (model : Model) (view : View) : ElementEntry where
  name := view.element.name
  qualifiedName := Namespace.expandedName model.context.targetNamespace? view.element.name
  cleanName := view.element.cleanName
  type? := view.element.type?
  isComplex := view.element.isComplex
  base? := view.element.base?
  minOccurs := view.element.minOccurs
  maxOccurs? := boundedMaximum? view.element.maxOccurs
  isMixed := view.element.isMixed
  mixedMismatch := view.element.mixedMismatch
  isAbstract := view.element.isAbstract
  isExtended := view.element.isExtended
  restriction? := RestrictionEntry.ofRestriction? view.element.facets.restriction
  attributes := view.element.attributes.values.map .ofAttribute
  children := (model.children view).map fun child => .ofElement child.element

def SimpleTypeEntry.ofSimpleType (type : SimpleType) : SimpleTypeEntry where
  name := type.name
  base? := type.base?
  isList := type.isList
  members := type.members
  collapsesSpace := type.collapsesSpace
  restriction? := RestrictionEntry.ofRestriction? type.facets.restriction

def ofModel (model : Model) : Dump where
  targetNamespace? := model.context.targetNamespace?
  qualifier := model.context.vocabulary.qualifier
  elements := model.elements.map (.ofView model)
  simpleTypes := model.simpleTypes.map .ofSimpleType
  substitutionGroups :=
    model.context.substitutionGroups.entries.map fun (head, members) => ⟨head, members⟩
  warnings := model.context.warnings.map Warning.message

end Dump

end XmlSchema
