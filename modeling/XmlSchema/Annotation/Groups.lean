import XmlSchema.Annotation.Progress
import XmlSchema.Error
import XmlSchema.Halt

/-!
# Expansion of group references

A reference to a group stands for the members of the group. `expandGroups` puts the members in place
of every reference, first inside the definitions of groups, so that each of them is flat, and then
in the tree. A reference without a definition, or to a group that is just being expanded, is dropped
with a warning.
-/

namespace XmlSchema

def Context.groupReference? (context : Context) (id : NodeId) : Option String :=
  match context.element? id with
  | some element => if element.kind = .group then element.groupRef? else none
  | none => none

/-- The definition of a group, by the name as it is or else without its namespace. -/
def groupDefinition? (groups : Table ElementGroup) (reference : String) : Option NodeId :=
  ((groups.find? reference).or (groups.find? (Namespace.localPart reference))).map
    ElementGroup.definition

def groupDefinitions (groups : Table ElementGroup) : List NodeId :=
  groups.values.map ElementGroup.definition

theorem mem_groupDefinitions {groups : Table ElementGroup} {reference : String}
    {definition : NodeId} (found : groupDefinition? groups reference = some definition) :
    definition ∈ groupDefinitions groups := by
  unfold groupDefinition? at found
  obtain ⟨group, foundGroup, rfl⟩ := Option.map_eq_some_iff.1 found
  refine List.mem_map.2 ⟨group, ?_, rfl⟩
  rcases Option.or_eq_some_iff.1 foundGroup with atName | ⟨_, atLocalPart⟩
  · exact Table.mem_values_of_find? atName
  · exact Table.mem_values_of_find? atLocalPart

set_option linter.unusedVariables false in
mutual

/-- Expands the references among the children of one node. The path holds the definitions inside
which the expansion already is. -/
def expandNode (groups : Table ElementGroup) (path : List NodeId) (id : NodeId)
    (context : Context) : Except (Halt Error) Context :=
  match context.options.limits.checkGroups path.length with
  | .error fault => .error ⟨.limit fault, context⟩
  | .ok () =>
      match context.element? id with
      | none => .ok context
      | some element =>
          if element.children.any fun child => (context.groupReference? child).isSome then
            match expandChildren groups path element.name element.children context with
            | .error halt => .error halt
            | .ok (expanded, context) =>
                .ok (context.modifyElement id ({ · with children := expanded }))
          else .ok context
termination_by (unvisited (groupDefinitions groups) path, 1, 0)

/-- What a list of children becomes when its references are expanded. -/
def expandChildren (groups : Table ElementGroup) (path : List NodeId) (owner : String) :
    List NodeId → Context → Except (Halt Error) (List NodeId × Context)
  | [], context => .ok ([], context)
  | child :: rest, context =>
      match context.groupReference? child with
      | none =>
          match expandChildren groups path owner rest context with
          | .error halt => .error halt
          | .ok (expanded, context) => .ok (child :: expanded, context)
      | some reference =>
          match found : groupDefinition? groups reference with
          | none =>
              let warned := context.warn (.undefinedGroup reference owner)
              expandChildren groups path owner rest warned
          | some definition =>
              if definition ∈ path then
                let warned := context.warn (.circularGroup reference owner)
                expandChildren groups path owner rest warned
              else
                match expandNode groups (definition :: path) definition context with
                | .error halt => .error halt
                | .ok context =>
                    let members := ((context.element? definition).map Element.children).getD []
                    match expandChildren groups path owner rest context with
                    | .error halt => .error halt
                    | .ok (expanded, context) => .ok (members ++ expanded, context)
termination_by children => (unvisited (groupDefinitions groups) path, 0, children.length)
decreasing_by
  · exact Prod.Lex.right _ (Prod.Lex.right _ (by simp))
  · exact Prod.Lex.right _ (Prod.Lex.right _ (by simp))
  · exact Prod.Lex.right _ (Prod.Lex.right _ (by simp))
  · exact Prod.Lex.left _ _ (unvisited_cons_lt (mem_groupDefinitions found) (by assumption))
  · exact Prod.Lex.right _ (Prod.Lex.right _ (by simp))

end

mutual

/-- Expansion makes no nodes. -/
theorem size_expandNode {groups : Table ElementGroup} {path : List NodeId} {id : NodeId}
    {context result : Context} (expanded : expandNode groups path id context = .ok result) :
    result.arena.size = context.arena.size := by
  rw [expandNode] at expanded
  split at expanded
  · cases expanded
  · split at expanded
    · cases expanded; rfl
    · split at expanded
      · split at expanded
        · cases expanded
        · rename_i children next expandedChildren
          cases expanded
          simpa [Context.modifyElement] using size_expandChildren expandedChildren
      · cases expanded; rfl
termination_by (unvisited (groupDefinitions groups) path, 1, 0)

theorem size_expandChildren {groups : Table ElementGroup} {path : List NodeId} {owner : String}
    {children members : List NodeId} {context result : Context}
    (expanded : expandChildren groups path owner children context = .ok (members, result)) :
    result.arena.size = context.arena.size := by
  cases children with
  | nil => rw [expandChildren] at expanded; cases expanded; rfl
  | cons child rest =>
      rw [expandChildren] at expanded
      split at expanded
      · split at expanded
        · cases expanded
        · rename_i laterExpanded
          cases expanded
          exact size_expandChildren laterExpanded
      · split at expanded
        · have unchanged := size_expandChildren expanded
          exact unchanged
        · rename_i definition found
          split at expanded
          · have unchanged := size_expandChildren expanded
            exact unchanged
          · rename_i fresh
            split at expanded
            · cases expanded
            · rename_i next nodeExpanded
              dsimp only at expanded
              split at expanded
              · cases expanded
              · rename_i laterExpanded
                cases expanded
                rw [size_expandChildren laterExpanded, size_expandNode nodeExpanded]
termination_by (unvisited (groupDefinitions groups) path, 0, children.length)
decreasing_by
  all_goals first
    | exact Prod.Lex.right _ (Prod.Lex.right _ (by subst_vars; simp))
    | exact Prod.Lex.left _ _
        (unvisited_cons_lt (mem_groupDefinitions (by assumption)) (by assumption))

end

set_option linter.unusedVariables false in
/-- Expands the references among the children of the pending nodes and of all nodes below them, each
node once, the last child of a node first. -/
def expandBelow (groups : Table ElementGroup) (visited : List NodeId) :
    List NodeId → Context → Except (Halt Error) Context
  | [], context => .ok context
  | id :: pending, context =>
      if id ∈ visited then expandBelow groups visited pending context
      else
        match expanded : expandNode groups [] id context with
        | .error halt => .error halt
        | .ok next =>
            match found : next.element? id with
            | none => expandBelow groups visited pending next
            | some element =>
                expandBelow groups (id :: visited) (element.children.reverse ++ pending) next
termination_by pending context => (unvisited context.arena.handles visited, pending.length)
decreasing_by
  · exact Prod.Lex.right _ (by simp)
  · rw [Arena.handles_eq_of_size_eq (size_expandNode expanded)]
    exact Prod.Lex.right _ (by simp)
  · rw [← Arena.handles_eq_of_size_eq (size_expandNode expanded)]
    exact Prod.Lex.left _ _ (unvisitedNodes_cons_lt found (by assumption))

/-- Expands every group reference, inside the definitions of groups and below the root. -/
def expandGroups (root : NodeId) (context : Context) : Except (Halt Error) Context :=
  let groups := context.elementGroups
  let flattened := (groupDefinitions groups).foldlM
    (fun context definition => expandNode groups [definition] definition context) context
  match flattened with
  | .error halt => .error halt
  | .ok context => expandBelow groups [] [root] context

end XmlSchema
