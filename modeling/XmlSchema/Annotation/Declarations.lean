import XmlSchema.Annotation.AttributeGroups
import XmlSchema.Annotation.Occurrence
import XmlSchema.Annotation.Walk
import XmlSchema.Halt

/-!
# Completion of declarations

Each declaration below the root gets what follows from its tag: its names as identifiers, the
attributes of the groups to which it refers, what its attributes take over from global ones, its
bounds, and how it treats mixed content and white space.
-/

namespace XmlSchema

/-- An attribute together with what it takes over from the global attribute to which it refers: the
type in any case, a default and facets where it has none. -/
def Attribute.inheritGlobal (globals : Table Attribute) (declaration : Attribute) : Attribute :=
  match declaration.reference?.bind globals.find? with
  | some origin =>
      { declaration with
        dataType := origin.dataType
        default? := declaration.default?.or origin.default?
        facets := declaration.facets.orElse origin.facets }
  | none => declaration

namespace Context

def mergedAttributes (context : Context) (element : Element) : AttributeMerge :=
  mergeGroups context.attributeGroups element.name [] element.attributeGroupRefs .empty

/-- Whether one of the simple types behind a declaration collapses white space. -/
def inheritsCollapse (context : Context) (base? simpleType? : Option String) : Bool :=
  (base?.toList ++ simpleType?.toList).any fun name =>
    (context.simpleType? name).any SimpleType.collapsesSpace

def completed (context : Context) (element : Element) (merged : Table Attribute)
    (occurrence : Occurrence) : Element :=
  let base? := element.base?.map context.vocabulary.tableName
  let identifier := clean element.name
  { element with
    base?
    plainCleanName := identifier
    cleanName := context.options.renames.apply identifier
    attributes := (element.attributes.insertAll merged).mapValues fun _ declaration =>
      declaration.inheritGlobal context.globalAttributes
    minOccurs := occurrence.minimum
    maxOccurs := occurrence.maximum
    isOptional := occurrence.minimum == 0
    isMixed := element.isMixed || (element.tagAttributes.find? "mixed").any isTrue
    collapsesSpace :=
      element.collapsesSpace || context.inheritsCollapse base? element.simpleType? }

end Context

/-- Completes one declaration. The warnings about its attribute groups stay even if its bounds are
at fault. -/
def completeElement (context : Context) (id : NodeId) : Except (Halt Error) Context :=
  match context.element? id with
  | none => .ok context
  | some element =>
      let merge := context.mergedAttributes element
      let warned := merge.warnings.foldl Context.warn context
      match element.occurrence with
      | .error cause => .error ⟨.semantic ⟨element.name, cause⟩, warned⟩
      | .ok occurrence =>
          .ok (warned.modifyElement id fun element =>
            context.completed element merge.attributes occurrence)

/-- Completes every declaration below a root. -/
def completeDeclarations (root : NodeId) (context : Context) : Except (Halt Error) Context :=
  (context.walk root).foldlM completeElement context

end XmlSchema
