import XmlSchema.Context

/-!
# The assembly of a tree

While a document is read, two stacks are open. Every tag is on the stack of open tags; only a tag
that makes a node is on the stack of open nodes as well. Both lists have the innermost entry first.
A node is linked to its parent when its tag closes.
-/

namespace XmlSchema

/-- A tag that has not been closed. -/
structure OpenTag where
  construct : Construct
  tag : String
  opensNode : Bool

/-- An open sequence, choice or all-group. -/
structure Compositor where
  /-- How many nodes were open when it opened. -/
  ownerDepth : Nat
  choice? : Option ChoiceBounds

/-- Where the attribute declared last is kept. -/
inductive AttributeSlot where
  | global (name : String)
  | grouped (owner : NodeId) (name : String)
  | owned (owner : NodeId) (name : String)

/-- A tree under assembly. -/
structure Assembly where
  context : Context
  openTags : List OpenTag
  openNodes : List NodeId
  compositors : List Compositor
  lastAttribute? : Option AttributeSlot
  /-- Whether no tag has been read yet. -/
  awaitsFirstTag : Bool
  /-- The schema, once it has closed. -/
  root? : Option NodeId

namespace Assembly

def start (context : Context) : Assembly where
  context
  openTags := []
  openNodes := []
  compositors := []
  lastAttribute? := none
  awaitsFirstTag := true
  root? := none

/-- How many nodes are open. -/
def depth (assembly : Assembly) : Nat := assembly.openNodes.length

/-- The innermost open node. -/
def top? (assembly : Assembly) : Option NodeId := assembly.openNodes.head?

def within (assembly : Assembly) (construct : Construct) : Bool :=
  assembly.openTags.any (·.construct = construct)

/-- The tag that messages name: the innermost open one, or the document. -/
def innermostTag (assembly : Assembly) : String :=
  (assembly.openTags.head?.map OpenTag.tag).getD "document"

def mapContext (assembly : Assembly) (change : Context → Context) : Assembly :=
  { assembly with context := change assembly.context }

/-- Changes the innermost open node. -/
def modifyTop (assembly : Assembly) (change : Node → Node) : Assembly :=
  match assembly.top? with
  | some id => assembly.mapContext (·.modifyNode id change)
  | none => assembly

/-- Changes the innermost open node if it is a declaration. -/
def modifyTopElement (assembly : Assembly) (change : Element → Element) : Assembly :=
  assembly.modifyTop (.mapElement change)

/-- Changes the innermost open node if it is a simple type. -/
def modifyTopSimpleType (assembly : Assembly) (change : SimpleType → SimpleType) : Assembly :=
  assembly.modifyTop (.mapSimpleType change)

def openNode (assembly : Assembly) (node : Node) : Assembly :=
  { assembly with
    context := assembly.context.addNode node
    openNodes := assembly.context.arena.nextId :: assembly.openNodes }

/-- Closes the innermost open node without linking it. -/
def dropNode (assembly : Assembly) : Assembly :=
  { assembly with openNodes := assembly.openNodes.tail }

def warn (assembly : Assembly) (warning : Warning) : Assembly :=
  assembly.mapContext (·.warn warning)

/-- The bounds of the innermost choice inside the innermost open node. -/
def enclosingChoice? (assembly : Assembly) : Option ChoiceBounds :=
  (assembly.compositors.takeWhile (·.ownerDepth = assembly.depth)).findSome? Compositor.choice?

/-- Whether a simple type is open whose restriction, list or union is open too. -/
def insideSimpleType (assembly : Assembly) : Bool :=
  assembly.within .simpleType &&
    (assembly.openTags.takeWhile (·.construct ≠ .simpleType)).any fun tag =>
      tag.construct = .restriction || tag.construct = .list || tag.construct = .union

/-- The innermost open element or complex type directly under the schema. -/
def nearestDeclaration? (assembly : Assembly) : Option NodeId :=
  assembly.openNodes.find? fun id =>
    (assembly.context.element? id).any fun element =>
      element.kind = .element || element.kind = .complexType

end Assembly

namespace AttributeSlot

def attribute? (context : Context) : AttributeSlot → Option Attribute
  | .global name => context.globalAttributes.find? name
  | .grouped owner name =>
      ((context.element? owner).bind Element.openGroup?).bind (·.attributes.find? name)
  | .owned owner name => (context.element? owner).bind (·.attributes.find? name)

def modify (context : Context) (change : Attribute → Attribute) : AttributeSlot → Context
  | .global name =>
      { context with globalAttributes := context.globalAttributes.modify name change }
  | .grouped owner name =>
      context.modifyElement owner fun element =>
        { element with
          openGroup? := element.openGroup?.map fun group =>
            { group with attributes := group.attributes.modify name change } }
  | .owned owner name =>
      context.modifyElement owner fun element =>
        { element with attributes := element.attributes.modify name change }

end AttributeSlot

end XmlSchema
