import XmlSchema.Context

/-!
# Resolved models

A model is the context in which a compilation ended, together with its schema. It is looked into
through views of declarations, which are found by name or reached from one another.
-/

namespace XmlSchema

/-- The result of a compilation. -/
structure Model where
  context : Context
  root : NodeId
deriving DecidableEq

/-- A declaration of a model under its handle. -/
structure View where
  id : NodeId
  element : Element
deriving DecidableEq

/-- What a restriction restricts. -/
inductive RestrictionScope where
  | value
  /-- Each item of a list or of a repeated declaration. -/
  | item
deriving DecidableEq

def Element.restrictionScope (element : Element) : RestrictionScope :=
  if element.isList || element.maxOccurs > 1 then .item else .value

namespace Model

def view? (model : Model) (id : NodeId) : Option View :=
  (model.context.element? id).map fun element => ⟨id, element⟩

def schema? (model : Model) : Option View := model.view? model.root

def element? (model : Model) (name : String) : Option View :=
  (model.context.elementIndex.find? name).bind model.view?

def simpleType? (model : Model) (name : String) : Option SimpleType :=
  model.context.simpleType? name

def simpleElement? (model : Model) (name : String) : Option View :=
  (model.context.simpleElements.find? name).bind model.view?

/-- The declarations in the index, in its order. -/
def elements (model : Model) : List View := model.context.elementIndex.values.filterMap model.view?

/-- The declarations in the index that stand directly under the schema. -/
def topLevelElements (model : Model) : List View :=
  model.elements.filter (·.element.isTopLevel)

/-- The named simple types, in document order. -/
def simpleTypes (model : Model) : List SimpleType :=
  model.context.simpleTypes.values.filterMap model.context.arena.simpleType?

def attributeGroup? (model : Model) (name : String) : Option AttributeGroup :=
  model.context.attributeGroups.find? name

def globalAttribute? (model : Model) (name : String) : Option Attribute :=
  model.context.globalAttributes.find? name

def substitutes (model : Model) (head : String) : List String :=
  (model.context.substitutionGroups.find? head).getD []

/-- The children of a declaration, in document order. -/
def children (model : Model) (view : View) : List View :=
  view.element.children.filterMap model.view?

/-- The declaration from which one inherits, where it is a declaration of this schema. -/
def base? (model : Model) (view : View) : Option View := view.element.base?.bind model.element?

/-- The built-in type to which a declaration resolved; one with a structure has none. -/
def builtin? (model : Model) (view : View) : Option Builtin :=
  if view.element.isComplex then none else view.element.type?.bind model.context.vocabulary.builtin?

/-- The simple type that the type attribute of a declaration names. -/
def declaredSimpleType? (model : Model) (view : View) : Option SimpleType :=
  view.element.simpleType?.bind fun name => model.simpleType? (Namespace.localPart name)

end Model

end XmlSchema
