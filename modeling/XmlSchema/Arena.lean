import XmlSchema.Element
import XmlSchema.SimpleType

/-!
# Nodes

The nodes of a compilation are numbered in the order in which they are made and refer to each other
by number. A node is a declaration or a simple type. No operation removes a node, so a handle stays
valid.
-/

namespace XmlSchema

/-- A node. -/
inductive Node where
  | declaration (element : Element)
  | simple (simpleType : SimpleType)
deriving DecidableEq

namespace Node

def name : Node → String
  | .declaration element => element.name
  | .simple simpleType => simpleType.name

def base? : Node → Option String
  | .declaration element => element.base?
  | .simple simpleType => simpleType.base?

def facets : Node → Facets
  | .declaration element => element.facets
  | .simple simpleType => simpleType.facets

def documentation : Node → String
  | .declaration element => element.documentation
  | .simple simpleType => simpleType.documentation

/-- The declaration, if the node is one. -/
def element? : Node → Option Element
  | .declaration element => some element
  | .simple _ => none

/-- The simple type, if the node is one. -/
def simpleType? : Node → Option SimpleType
  | .declaration _ => none
  | .simple simpleType => some simpleType

def mapElement (change : Element → Element) : Node → Node
  | .declaration element => .declaration (change element)
  | .simple simpleType => .simple simpleType

def mapSimpleType (change : SimpleType → SimpleType) : Node → Node
  | .declaration element => .declaration element
  | .simple simpleType => .simple (change simpleType)

def mapFacets (change : Facets → Facets) : Node → Node
  | .declaration element => .declaration { element with facets := change element.facets }
  | .simple simpleType => .simple { simpleType with facets := change simpleType.facets }

def withRestrictionAttributes (attributes : Table String) : Node → Node
  | .declaration element => .declaration { element with restrictionAttributes := attributes }
  | .simple simpleType =>
      .simple { simpleType with restrictionAttributes := attributes }

def collapsingSpace : Node → Node
  | .declaration element => .declaration { element with collapsesSpace := true }
  | .simple simpleType => .simple { simpleType with collapsesSpace := true }

/-- Documentation with more text behind it, after a space unless it is the first. -/
def appendText (documentation text : String) : String :=
  if documentation = "" then text else documentation ++ " " ++ text

def document (text : String) : Node → Node
  | .declaration element =>
      .declaration { element with documentation := appendText element.documentation text }
  | .simple simpleType =>
      .simple { simpleType with documentation := appendText simpleType.documentation text }

end Node

/-- The nodes of a compilation. -/
structure Arena where
  nodes : Array Node
deriving DecidableEq

namespace Arena

/-- No nodes. -/
def empty : Arena := ⟨#[]⟩

def size (arena : Arena) : Nat := arena.nodes.size

def nextId (arena : Arena) : NodeId := ⟨arena.size⟩

/-- Adds a node, under the handle `arena.nextId`. -/
def add (arena : Arena) (node : Node) : Arena := ⟨arena.nodes.push node⟩

def node? (arena : Arena) (id : NodeId) : Option Node := arena.nodes[id.index]?

def element? (arena : Arena) (id : NodeId) : Option Element := (arena.node? id).bind Node.element?

def simpleType? (arena : Arena) (id : NodeId) : Option SimpleType :=
  (arena.node? id).bind Node.simpleType?

def modify (arena : Arena) (id : NodeId) (change : Node → Node) : Arena :=
  ⟨arena.nodes.modify id.index change⟩

def modifyElement (arena : Arena) (id : NodeId) (change : Element → Element) : Arena :=
  arena.modify id (.mapElement change)

@[simp] theorem size_modify (arena : Arena) (id : NodeId) (change : Node → Node) :
    (arena.modify id change).size = arena.size := by
  simp [modify, size]

@[simp] theorem size_modifyElement (arena : Arena) (id : NodeId) (change : Element → Element) :
    (arena.modifyElement id change).size = arena.size :=
  size_modify arena id _

theorem node?_add (arena : Arena) (node : Node) (id : NodeId) :
    (arena.add node).node? id = if id = arena.nextId then some node else arena.node? id := by
  unfold add node? nextId size
  rw [Array.getElem?_push]
  cases id with
  | mk index => simp

theorem node?_modify (arena : Arena) (id other : NodeId) (change : Node → Node) :
    (arena.modify id change).node? other =
      if other = id then (arena.node? id).map change else arena.node? other := by
  unfold modify node?
  rw [Array.getElem?_modify]
  cases id with
  | mk index =>
      cases other with
      | mk otherIndex =>
          by_cases same : otherIndex = index
          · simp [same]
          · have different : ¬ index = otherIndex := fun equal => same equal.symm
            simp [same, different]

theorem element?_modifyElement (arena : Arena) (id other : NodeId) (change : Element → Element) :
    (arena.modifyElement id change).element? other =
      if other = id then (arena.element? id).map change else arena.element? other := by
  unfold modifyElement element?
  rw [node?_modify]
  by_cases same : other = id
  · simp only [same, if_true]
    cases arena.node? id with
    | none => rfl
    | some node => cases node <;> rfl
  · simp [same]

end Arena

end XmlSchema
