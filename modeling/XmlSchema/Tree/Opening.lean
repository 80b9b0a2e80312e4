import XmlSchema.Tree.Assembly
import XmlSchema.Xml.Attributes

/-!
# What opening tags do

`Assembly.openTag` dispatches on the construct of a tag. A schema, an element, a complex type
directly under the schema, a wildcard, a group, a named attribute group and a simple type make
nodes; all other tags change the nodes that are open. The second component of its result says
whether the tag opened a node.
-/

namespace XmlSchema.Assembly

open Xml (Attributes)

def bindNamespace (context : Context) (key value : String) : Context :=
  if key = "xmlns" then { context with namespaces := context.namespaces.bindDefault value }
  else
    match afterLead? "xmlns:" key with
    | some name => { context with namespaces := context.namespaces.bind name value }
    | none =>
        if key = "targetNamespace" then { context with targetNamespace? := some value }
        else context

/-- Opens the schema: its tag binds namespaces. -/
def openSchema (assembly : Assembly) (attributes : Attributes) : Assembly :=
  let bound := assembly.mapContext fun context =>
    attributes.entries.foldl (fun context (key, value) => bindNamespace context key value) context
  bound.openNode (.declaration (.ofTag .schema attributes assembly.context.vocabulary))

/-- Opens an element or a complex type directly under the schema. -/
def openElement (assembly : Assembly) (kind : ElementKind) (attributes : Attributes) : Assembly :=
  let element :=
    { Element.ofTag kind attributes assembly.context.vocabulary with
      definesContent := !attributes.contains "type" && !attributes.contains "ref"
      isTopLevel := assembly.depth == 1
      choice? := assembly.enclosingChoice? }
  let recorded :=
    match attributes.find? "substitutionGroup", attributes.find? "name" with
    | some head, some member =>
        assembly.mapContext (·.addSubstitution (Namespace.localPart head) member)
    | _, _ => assembly
  recorded.openNode (.declaration element)

/-- The element around a complex type takes over the attributes of its tag, the name apart. -/
def mergeAttributes (attributes : Attributes) (element : Element) : Element :=
  attributes.entries.foldl (fun element (key, value) =>
    if key = "name" then element
    else
      { element with
        isAbstract := if key = "abstract" then isTrue value else element.isAbstract
        tagAttributes := element.tagAttributes.insert key value }) element

/-- Opens a complex type inside an element, which makes no node. -/
def openInnerComplexType (assembly : Assembly) (attributes : Attributes) : Assembly :=
  if assembly.depth < 2 then assembly else assembly.modifyTopElement (mergeAttributes attributes)

/-- Opens a group, defined or referred to. -/
def openGroup (assembly : Assembly) (attributes : Attributes) : Assembly :=
  assembly.openNode (.declaration
    { Element.ofTag .group attributes assembly.context.vocabulary with
      isTopLevel := assembly.depth == 1
      groupRef? := attributes.find? "ref" })

/-- Opens a sequence, a choice or an all-group. -/
def openCompositor (assembly : Assembly) (choice? : Option ChoiceBounds) : Assembly :=
  { assembly with compositors := ⟨assembly.depth, choice?⟩ :: assembly.compositors }

def declaredAttribute (vocabulary : Vocabulary) (attributes : Attributes) : Attribute :=
  let reference? := (attributes.find? "ref").map Namespace.localPart
  let name := ((attributes.find? "name").or reference?).getD "no_attribute_name"
  { Attribute.ofType name ((attributes.find? "type").getD vocabulary.stringType) with
    usage := ((attributes.find? "use").map AttributeUse.ofValue).getD .optional
    default? := attributes.find? "default"
    reference? }

/-- Stores an attribute: under the schema as a global one, inside the definition of an attribute
group in the group, and otherwise in the innermost open declaration. A simple type has no
attributes. -/
def openAttribute (assembly : Assembly) (attributes : Attributes) : Assembly :=
  let declared := declaredAttribute assembly.context.vocabulary attributes
  match assembly.top? with
  | none => assembly
  | some owner =>
      match assembly.context.element? owner with
      | none => assembly
      | some element =>
          if element.kind = .schema then
            { assembly.mapContext (fun context =>
                { context with
                  globalAttributes := context.globalAttributes.insert declared.name declared }) with
              lastAttribute? := some (.global declared.name) }
          else
            match element.openGroup? with
            | some group =>
                let extended := group.attributes.insert declared.name declared
                { assembly.mapContext (·.modifyElement owner fun element =>
                    { element with openGroup? := some { group with attributes := extended } }) with
                  lastAttribute? := some (.grouped owner declared.name) }
            | none =>
                let extended := element.attributes.insert declared.name declared
                { assembly.mapContext (·.modifyElement owner fun element =>
                    { element with attributes := extended }) with
                  lastAttribute? := some (.owned owner declared.name) }

/-- Records a reference to an attribute group in the innermost open declaration, or in the attribute
group that it defines. -/
def referToAttributeGroup (reference : String) (defining : Bool) (element : Element) : Element :=
  match element.openGroup?, defining with
  | some group, false =>
      { element with
        openGroup? := some { group with references := group.references ++ [reference] } }
  | _, _ => { element with attributeGroupRefs := element.attributeGroupRefs ++ [reference] }

/-- Opens an attribute group. A name makes it a definition, which is a node. -/
def openAttributeGroup (assembly : Assembly) (attributes : Attributes) : Assembly × Bool :=
  let (opened, defining) :=
    match attributes.find? "name" with
    | some name =>
        (assembly.openNode (.declaration
          { Element.ofTag .attributeGroup attributes assembly.context.vocabulary with
            isTopLevel := assembly.depth == 1
            openGroup? := some (.ofName (Namespace.localPart name)) }), true)
    | none => (assembly, false)
  match attributes.find? "ref" with
  | some reference => (opened.modifyTopElement (referToAttributeGroup reference defining), defining)
  | none => (opened, defining)

/-- Opens an extension: a built-in base is a simple type behind the declaration, any other is
inherited from. -/
def openExtension (assembly : Assembly) (attributes : Attributes) : Assembly :=
  match attributes.find? "base" with
  | none => assembly
  | some base =>
      if assembly.context.vocabulary.isBuiltin base then
        assembly.modifyTopElement (·.addSimpleBase base)
      else assembly.modifyTopElement ({ · with base? := some base })

/-- Opens a simple type, unless it belongs to an attribute or to another simple type. Without a name
of its own it is called like the node around it. -/
def openSimpleType (assembly : Assembly) (attributes : Attributes) : Assembly × Bool :=
  if assembly.within .attribute || assembly.insideSimpleType then (assembly, false)
  else
    let name :=
      match attributes.find? "name" with
      | some name => Namespace.localPart name
      | none => (assembly.top?.map assembly.context.nodeName).getD ""
    let marked := assembly.modifyTopElement fun element =>
      if element.kind = .schema then element else { element with inlineSimpleType := true }
    let id := marked.context.arena.nextId
    let opened := marked.openNode (.simple
      { SimpleType.ofName name with default? := attributes.find? "default" })
    if name = "" then (opened, true)
    else
      (opened.mapContext fun context =>
        { context with simpleTypes := context.simpleTypes.insertNew name id }, true)

/-- Opens a restriction. Inside an attribute its base is the attribute's type. The base of a simple
type is the first one given; that of an element is inherited from where content is simple, and
recorded apart otherwise. -/
def openRestriction (assembly : Assembly) (attributes : Attributes) : Assembly :=
  let base? := attributes.find? "base"
  if assembly.within .attribute then
    match base?, assembly.lastAttribute? with
    | some base, some slot =>
        assembly.mapContext fun context => slot.modify context ({ · with dataType := base })
    | _, _ => assembly
  else
    let simple := assembly.within .simpleType || assembly.within .simpleContent
    assembly.modifyTop fun node =>
      let based : Node :=
        match node with
        | .simple simpleType => .simple { simpleType with base? := simpleType.base?.or base? }
        | .declaration element =>
            match base? with
            | none => .declaration element
            | some base =>
                if simple then .declaration { element with base? := some base }
                else .declaration { element with restrictedBase? := some base }
      based.withRestrictionAttributes attributes

/-- Opens a union: its member types join those of the simple type. -/
def openUnion (assembly : Assembly) (attributes : Attributes) : Assembly :=
  match attributes.find? "memberTypes" with
  | some members =>
      assembly.modifyTopSimpleType fun simpleType =>
        { simpleType with members := simpleType.members ++ Text.words members }
  | none => assembly

def openList (assembly : Assembly) (attributes : Attributes) : Assembly :=
  if assembly.within .simpleType then
    assembly.modifyTopSimpleType fun simpleType =>
      { simpleType with isList := true, base? := (attributes.find? "itemType").or simpleType.base? }
  else assembly

/-! ## Facets -/

/-- A facet and its value. -/
inductive FacetValue where
  | literal (value : String)
  | minimum (bound : Decimal)
  | maximum (bound : Decimal)

def FacetValue.addTo (facets : Facets) : FacetValue → Facets
  | .literal value => facets.allow value
  | .minimum bound => facets.setMinimum bound
  | .maximum bound => facets.setMaximum bound

/-- The facet of a construct with a value, or none when the value is a bound and not a decimal. -/
def facetValue? (construct : Construct) (value : String) : Option FacetValue :=
  match construct with
  | .minInclusive => (Decimal.parse (Text.trim value)).map .minimum
  | .maxInclusive => (Decimal.parse (Text.trim value)).map .maximum
  | _ => some (.literal value)

/-- What a facet belongs to. -/
inductive FacetOwner where
  | declaredAttribute (slot : AttributeSlot)
  | node (id : NodeId)

/-- The owner of a facet that opens now: the attribute around it if there is one that is kept; else
the innermost open declaration; else the innermost open node if it is a simple type. -/
def facetOwner? (assembly : Assembly) : Option FacetOwner :=
  match assembly.lastAttribute?, assembly.within .attribute with
  | some slot, true => (slot.attribute? assembly.context).map fun _ => .declaredAttribute slot
  | _, _ =>
      match assembly.nearestDeclaration? with
      | some id => some (.node id)
      | none =>
          assembly.top?.bind fun id => (assembly.context.arena.simpleType? id).map fun _ => .node id

def addFacet (context : Context) (facet : FacetValue) : FacetOwner → Context
  | .declaredAttribute slot => slot.modify context fun declared =>
      { declared with facets := facet.addTo declared.facets }
  | .node id => context.modifyNode id (.mapFacets facet.addTo)

/-- Opens a facet, which reaches its owner or else leaves a warning. -/
def openFacet (assembly : Assembly) (construct : Construct) (attributes : Attributes) : Assembly :=
  match attributes.find? "value" with
  | none =>
      assembly.warn
        (.missingFacetValue construct ((assembly.top?.map assembly.context.nodeName).getD ""))
  | some value =>
      match facetValue? construct value with
      | none => assembly.warn (.invalidFacetValue value)
      | some facet =>
          match assembly.facetOwner? with
          | some owner => assembly.mapContext (addFacet · facet owner)
          | none => assembly.warn (.detachedFacet value)

def openWhiteSpace (assembly : Assembly) (attributes : Attributes) : Assembly :=
  if attributes.find? "value" = some "collapse" ∧ assembly.within .restriction then
    assembly.modifyTop Node.collapsingSpace
  else assembly

/-! ## All constructs -/

/-- What an opening tag does to the assembly, and whether it opens a node. -/
def openTag (assembly : Assembly) (construct : Construct) (attributes : Attributes) :
    Assembly × Bool :=
  match construct with
  | .schema => (assembly.openSchema attributes, true)
  | .element => (assembly.openElement .element attributes, true)
  | .complexType =>
      if assembly.depth = 1 then (assembly.openElement .complexType attributes, true)
      else (assembly.openInnerComplexType attributes, false)
  | .any =>
      (assembly.openNode (.declaration (.ofTag .any attributes assembly.context.vocabulary)), true)
  | .group => (assembly.openGroup attributes, true)
  | .sequence | .all => (assembly.openCompositor none, false)
  | .choice =>
      (assembly.openCompositor
        (some ⟨attributes.find? "minOccurs", attributes.find? "maxOccurs"⟩), false)
  | .attribute => (assembly.openAttribute attributes, false)
  | .attributeGroup => assembly.openAttributeGroup attributes
  | .anyAttribute => (assembly.modifyTopElement ({ · with anyAttribute := true }), false)
  | .simpleContent => (assembly.modifyTopElement ({ · with simpleContent := true }), false)
  | .complexContent =>
      if (attributes.find? "mixed").any isTrue then
        (assembly.modifyTopElement ({ · with isMixed := true }), false)
      else (assembly, false)
  | .extension => (assembly.openExtension attributes, false)
  | .simpleType => assembly.openSimpleType attributes
  | .restriction => (assembly.openRestriction attributes, false)
  | .enumeration | .minInclusive | .maxInclusive => (assembly.openFacet construct attributes, false)
  | .whiteSpace => (assembly.openWhiteSpace attributes, false)
  | .union => (assembly.openUnion attributes, false)
  | .list => (assembly.openList attributes, false)
  | Construct.annotation | .documentation | .other => (assembly, false)

end XmlSchema.Assembly
