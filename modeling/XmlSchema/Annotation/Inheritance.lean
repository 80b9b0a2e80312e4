import XmlSchema.Annotation.Walk
import XmlSchema.Error

/-!
# Inheritance

A declaration inherits from the declaration in the index that has the name of its base, and so on
upwards. `Context.ancestors` lists the ancestors of a declaration. A chain above the bound is taken
to be cyclic.
-/

namespace XmlSchema

namespace Context

/-- The base of a declaration, where it is a declaration in the index. -/
def parent? (context : Context) (id : NodeId) : Option (String × NodeId) :=
  match (context.element? id).bind Element.base? with
  | some base => (context.elementIndex.find? base).map fun parent => (base, parent)
  | none => none

/-- Goes up from a declaration for at most `steps` steps. The ancestors found so far have the
farthest first, and the result has the nearest first. When the steps do not suffice, the result is
the base that could not be followed. -/
def climb (context : Context) (found : List NodeId) : Nat → NodeId → Except String (List NodeId)
  | steps, id =>
      match context.parent? id with
      | none => .ok found.reverse
      | some (base, parent) =>
          match steps with
          | 0 => .error base
          | steps + 1 => context.climb (parent :: found) steps parent

/-- The ancestors of a declaration, the nearest first. -/
def ancestors (context : Context) (id : NodeId) : Except Error (List NodeId) :=
  let limit := context.options.limits.baseDepth
  match context.climb [] limit id with
  | .ok chain => .ok chain
  | .error base => .error (.semantic ⟨context.nodeName id, .cyclicInheritance base limit⟩)

def markParent (context : Context) (id : NodeId) : Context :=
  match context.parent? id with
  | some (_, parent) => context.modifyElement parent ({ · with isExtended := true })
  | none => context

end Context

/-- Marks every declaration from which another one below the root inherits directly. -/
def markExtended (root : NodeId) (context : Context) : Context :=
  (context.walk root).foldl Context.markParent context

end XmlSchema
