import XmlSchema.Annotation.Walk

/-!
# The index of declarations

Other declarations refer by name to those in the index. What stands directly under the schema is
entered, and so is all that has a structure: children, attributes or a base.
-/

namespace XmlSchema

/-- Whether other declarations can refer to this one. -/
def Element.isReferable (element : Element) : Bool :=
  element.isTopLevel || !element.children.isEmpty || !element.attributes.isEmpty ||
    element.base?.isSome

/-- Enters one declaration into the index, if others can refer to it. -/
def indexElement (context : Context) (id : NodeId) : Context :=
  match context.element? id with
  | some element => if element.isReferable then context.register element.name id else context
  | none => context

/-- Enters the declarations below a root into the index, the first of each name. -/
def indexElements (root : NodeId) (context : Context) : Context :=
  (context.walk root).foldl indexElement context

end XmlSchema
