import XmlSchema.Tree.Assembly

/-!
# What closings do

Closing a tag undoes what its opening put on the stacks. A child is linked to the node around it, a
definition enters its table, and the schema becomes the root.
-/

namespace XmlSchema.Assembly

/-- Links a node as the last child of the innermost open declaration. -/
def linkChild (assembly : Assembly) (child : NodeId) : Assembly :=
  assembly.modifyTopElement fun element => { element with children := element.children ++ [child] }

/-- Closes a node and links it to the one around it. The outermost node stays open. -/
def closeChild (assembly : Assembly) : Assembly :=
  match assembly.openNodes with
  | child :: _ :: _ => assembly.dropNode.linkChild child
  | _ => assembly

/-- Closes a group. A definition directly under the schema enters the table of groups; a reference
below that becomes a child. -/
def closeGroup (assembly : Assembly) : Assembly :=
  match assembly.top? with
  | none => assembly
  | some id =>
      let dropped := assembly.dropNode
      match assembly.context.element? id with
      | none => dropped
      | some element =>
          if element.groupRef?.isNone then
            if dropped.depth = 1 then
              dropped.mapContext fun context =>
                { context with
                  elementGroups := context.elementGroups.insertNew element.name ⟨element.name, id⟩ }
            else dropped
          else if dropped.depth > 1 then dropped.linkChild id
          else dropped

/-- Closes the definition of an attribute group, which enters the table of attribute groups. -/
def closeAttributeGroup (assembly : Assembly) : Assembly :=
  match assembly.top? with
  | none => assembly
  | some id =>
      match (assembly.context.element? id).bind Element.openGroup? with
      | none => assembly.dropNode
      | some group =>
          assembly.dropNode.mapContext fun context =>
            let closed := context.modifyElement id ({ · with openGroup? := none })
            { closed with attributeGroups := closed.attributeGroups.insertNew group.name group }

/-- What the closing of a tag does, except to the schema. -/
def closeTag (assembly : Assembly) (tag : OpenTag) : Assembly :=
  match tag.construct with
  | .element | .complexType | .any => if tag.opensNode then assembly.closeChild else assembly
  | .group => if tag.opensNode then assembly.closeGroup else assembly
  | .attributeGroup => if tag.opensNode then assembly.closeAttributeGroup else assembly
  | .simpleType => if tag.opensNode then assembly.dropNode else assembly
  | .sequence | .choice | .all => { assembly with compositors := assembly.compositors.tail }
  | .attribute => { assembly with lastAttribute? := none }
  | _ => assembly

end XmlSchema.Assembly
