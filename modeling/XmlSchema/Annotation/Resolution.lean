import XmlSchema.Annotation.Alias
import XmlSchema.Annotation.SimpleChain
import XmlSchema.Halt

/-!
# Resolution of types

Every declaration except the schema and wildcards gets a type: a built-in one, the name of a
structured declaration, or what the policy makes of a name that leads nowhere. `Context.resolve`
finds the type and changes nothing; `resolveElement` records it.
-/

namespace XmlSchema

/-- What resolution finds out about a declaration. -/
structure Resolution where
  type : ResolvedType
  isStructured : Bool
deriving DecidableEq

namespace Context

/-- What an alias stands for: a built-in type if its chain ends at one, and else a structure of the
name. -/
def resolveAlias (context : Context) (nominals : Nominals) (node name : String) :
    Except Error Resolution :=
  let chain := context.aliasChain nominals [name] name
  let settle (type : ResolvedType) : Resolution :=
    let facets? := firstFacets? (chain.facets ++ type.facets?.toList)
    if context.vocabulary.isBuiltin type.name then ⟨⟨type.name, facets?⟩, false⟩
    else ⟨⟨name, facets?⟩, true⟩
  match chain.ending with
  | .simple simple => (context.resolveSimple node simple).map settle
  | .outside outside => .ok (settle ⟨outside, none⟩)
  | .structured => .ok ⟨⟨name, firstFacets? chain.facets⟩, true⟩

/-- What a nominal type stands for, for the node of a name. -/
def resolve (context : Context) (nominals : Nominals) (node : String) (nominal : Nominal) :
    Except Error Resolution :=
  let simply (type : ResolvedType) : Resolution := ⟨type, false⟩
  if context.elementIndex.contains nominal.name then context.resolveAlias nominals node nominal.name
  else if context.simpleTypes.contains nominal.name then
    (context.resolveSimple node nominal.name).map simply
  else if context.vocabulary.isBuiltin nominal.name then .ok (simply ⟨nominal.name, none⟩)
  else if nominal.source = .name then .ok (simply ⟨context.vocabulary.stringType, none⟩)
  else
    (context.fallBack node (.unknownType nominal.name)).map fun name => simply ⟨name, none⟩

/-- Records a simple type that is the nominal type of a declaration. -/
def noteSimpleType (context : Context) (id : NodeId) (nominal : Nominal) : Context :=
  if context.simpleTypes.contains nominal.name then
    let isList := context.isListType nominal.name
    context.modifyElement id fun element =>
      { element.addSimpleBase nominal.name with
        isList := element.isList || isList
        simpleType? := if nominal.source = .type then some nominal.name else element.simpleType? }
  else context

/-- Records what a declaration was found to be. One with attributes has a structure in any case, and
one without a structure enters the table of simple elements. -/
def settle (context : Context) (id : NodeId) (resolution : Resolution) : Context :=
  match context.element? id with
  | none => context
  | some element =>
      let isComplex := !element.attributes.isEmpty || resolution.isStructured
      let settled := context.modifyElement id fun element =>
        { element with
          type? := some resolution.type.name
          isComplex
          facets := element.facets.orElse (resolution.type.facets?.getD element.facets) }
      if isComplex || element.name = "" then settled
      else { settled with simpleElements := settled.simpleElements.insertNew element.name id }

end Context

def resolveElement (nominals : Nominals) (context : Context) (id : NodeId) :
    Except (Halt Error) Context :=
  match context.element? id with
  | none => .ok context
  | some element =>
      if element.kind = .schema || element.isWildcard then .ok context
      else
        match nominals.find? id with
        | none => .ok (context.settle id ⟨⟨context.vocabulary.stringType, none⟩, false⟩)
        | some nominal =>
            let noted := context.noteSimpleType id nominal
            match noted.resolve nominals element.name nominal with
            | .error error => .error ⟨error, noted⟩
            | .ok resolution => .ok (noted.settle id resolution)

/-- Resolves the type of every declaration below a root. -/
def resolveTypes (root : NodeId) (context : Context) : Except (Halt Error) Context :=
  (context.walk root).foldlM (resolveElement (.ofContext context root)) context

end XmlSchema
