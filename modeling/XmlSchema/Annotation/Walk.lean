import XmlSchema.Annotation.Progress
import XmlSchema.Context

/-!
# Walks

A walk lists the declarations below a root in document order. Children can be shared and a tree can
lead back into itself, so a walk remembers where it has been and lists each declaration once, at its
first visit.
-/

namespace XmlSchema

set_option linter.unusedVariables false in
/-- The declarations met from the pending handles on, the first pending handle and what lies below
it first, without those already visited. -/
def Arena.walkFrom (arena : Arena) (visited : List NodeId) : List NodeId → List NodeId
  | [] => []
  | id :: pending =>
      if id ∈ visited then arena.walkFrom visited pending
      else
        match found : arena.element? id with
        | none => arena.walkFrom visited pending
        | some element => id :: arena.walkFrom (id :: visited) (element.children ++ pending)
termination_by pending => arena.workLeft visited + pending.length
decreasing_by
  · simp
  · simp
  · have lessWork := Arena.workLeft_cons found (by assumption)
    simp only [List.length_append, List.length_cons]
    omega

/-- The declarations below a root and the root itself, each once, in document order. -/
def Arena.walk (arena : Arena) (root : NodeId) : List NodeId := arena.walkFrom [] [root]

/-- The declarations below a root, in document order. -/
def Context.walk (context : Context) (root : NodeId) : List NodeId := context.arena.walk root

end XmlSchema
