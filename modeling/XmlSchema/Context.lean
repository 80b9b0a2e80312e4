import XmlSchema.Arena
import XmlSchema.Options
import XmlSchema.Warning

/-!
# The state of a compilation

Reading a document fills a context and annotation completes it: the nodes, the tables of names, and
the warnings in the order in which they arose.
-/

namespace XmlSchema

/-- A named group, whose members are the children of its node. -/
structure ElementGroup where
  name : String
  definition : NodeId
deriving DecidableEq

/-- The state of a compilation. -/
structure Context where
  options : Options
  vocabulary : Vocabulary
  arena : Arena
  /-- Named declarations; the first of a name counts. -/
  elementIndex : Table NodeId
  /-- Named simple types; the first of a name counts. -/
  simpleTypes : Table NodeId
  /-- Declarations that resolved to a simple type; the first of a name counts. -/
  simpleElements : Table NodeId
  attributeGroups : Table AttributeGroup
  elementGroups : Table ElementGroup
  /-- The members of each substitution group under the name of its head. -/
  substitutionGroups : Table (List String)
  globalAttributes : Table Attribute
  namespaces : Namespaces
  targetNamespace? : Option String
  warnings : List Warning
deriving DecidableEq

namespace Context

def initial (options : Options) : Context where
  options
  vocabulary := .standard
  arena := .empty
  elementIndex := .empty
  simpleTypes := .empty
  simpleElements := .empty
  attributeGroups := .empty
  elementGroups := .empty
  substitutionGroups := .empty
  globalAttributes := .empty
  namespaces := .empty
  targetNamespace? := none
  warnings := []

def node? (context : Context) (id : NodeId) : Option Node := context.arena.node? id

def element? (context : Context) (id : NodeId) : Option Element := context.arena.element? id

def nodeName (context : Context) (id : NodeId) : String :=
  ((context.node? id).map Node.name).getD ""

def modifyNode (context : Context) (id : NodeId) (change : Node → Node) : Context :=
  { context with arena := context.arena.modify id change }

def modifyElement (context : Context) (id : NodeId) (change : Element → Element) : Context :=
  { context with arena := context.arena.modifyElement id change }

/-- Adds a node, under the handle `context.arena.nextId`. -/
def addNode (context : Context) (node : Node) : Context :=
  { context with arena := context.arena.add node }

def warn (context : Context) (warning : Warning) : Context :=
  { context with warnings := context.warnings ++ [warning] }

/-- Whether a declaration of the name can still be entered into the index. -/
def canRegister (context : Context) (name : String) : Bool :=
  name != "" && !context.elementIndex.contains name

/-- Enters a declaration into the index, unless it has no name or the name is taken. -/
def register (context : Context) (name : String) (id : NodeId) : Context :=
  if context.canRegister name then
    { context with elementIndex := context.elementIndex.insert name id }
  else context

/-- Records that `member` can stand for `head`, once. -/
def addSubstitution (context : Context) (head member : String) : Context :=
  let members := (context.substitutionGroups.find? head).getD []
  let extended := if member ∈ members then members else members ++ [member]
  { context with substitutionGroups := context.substitutionGroups.insert head extended }

def simpleType? (context : Context) (name : String) : Option SimpleType :=
  (context.simpleTypes.find? name).bind context.arena.simpleType?

end Context

theorem element?_modifyElement_other {context : Context} {id other : NodeId}
    (different : other ≠ id) (change : Element → Element) :
    (context.modifyElement id change).element? other = context.element? other :=
  (Arena.element?_modifyElement context.arena id other change).trans (if_neg different)

theorem element?_modifyElement_self {context : Context} {id : NodeId} {element : Element}
    (found : context.element? id = some element) (change : Element → Element) :
    (context.modifyElement id change).element? id = some (change element) := by
  have modified := Arena.element?_modifyElement context.arena id id change
  rw [if_pos rfl] at modified
  exact modified.trans (congrArg (Option.map change) found)

end XmlSchema
