import XmlSchema.Annotation.SimpleChain
import XmlSchema.Annotation.Walk
import XmlSchema.Halt

/-!
# Types of attributes

Every attribute below the root gets a built-in type: its own, that to which its simple type leads,
or what the policy makes of a name that leads nowhere. The types of identifiers and of references to
them become the string type.
-/

namespace XmlSchema

/-- The type of an attribute, resolved for the place named in messages. -/
def Context.resolveAttributeType (context : Context) (place dataType : String) :
    Except Error ResolvedType :=
  let name := Namespace.localPart dataType
  if context.vocabulary.isBuiltin dataType then .ok ⟨dataType, none⟩
  else if context.simpleTypes.contains name then context.resolveSimple place name
  else (context.fallBack place (.unknownAttributeType dataType)).map fun type => ⟨type, none⟩

/-- An attribute with its type resolved. Facets met on the way are taken over where it has none. -/
def Attribute.resolved (vocabulary : Vocabulary) (type : ResolvedType) (declaration : Attribute) :
    Attribute :=
  let isIdentity := (vocabulary.builtin? type.name).any Builtin.isIdentity
  { declaration with
    dataType :=
      if isIdentity && declaration.dataType = type.name then vocabulary.stringType
      else declaration.dataType
    resolvedType? := some (if isIdentity then vocabulary.stringType else type.name)
    facets := declaration.facets.orElse (type.facets?.getD declaration.facets) }

def resolveAttribute (id : NodeId) (owner : String) (context : Context)
    (entry : String × Attribute) : Except (Halt Error) Context :=
  match context.resolveAttributeType s!"{owner}@{entry.1}" entry.2.dataType with
  | .error error => .error ⟨error, context⟩
  | .ok type =>
      .ok (context.modifyElement id fun element =>
        { element with
          attributes := element.attributes.modify entry.1 (.resolved context.vocabulary type) })

def resolveElementAttributes (context : Context) (id : NodeId) : Except (Halt Error) Context :=
  match context.element? id with
  | some element => element.attributes.entries.foldlM (resolveAttribute id element.name) context
  | none => .ok context

/-- Resolves the types of all attributes below a root. -/
def resolveAttributeTypes (root : NodeId) (context : Context) : Except (Halt Error) Context :=
  (context.walk root).foldlM resolveElementAttributes context

end XmlSchema
