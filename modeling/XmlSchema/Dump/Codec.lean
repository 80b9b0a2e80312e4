import XmlSchema.Dump.Basic
import XmlSchema.Json.Parser
import XmlSchema.Json.Printer
import XmlSchema.Json.Record

/-!
# Dumps as JSON

Each entry of a dump has a writer and a reader side by side. Fields that are usually unset are left
out when they are.
-/

namespace XmlSchema.Dump

open Json (fields? required? optional? defaulted? unlessNone unlessFalse unlessEmpty asText? asBool?
  asWord32? asList?)

/-! ## Restrictions -/

def RestrictionEntry.toJson (entry : RestrictionEntry) : Json :=
  .object ([("kind", .string entry.kind)] ++ unlessNone "minimum" .string entry.minimum? ++
    unlessNone "maximum" .string entry.maximum? ++ unlessNone "values" .strings entry.values?)

def RestrictionEntry.ofJson? (json : Json) : Option RestrictionEntry := do
  let members ← fields? ["kind", "minimum", "maximum", "values"] 4 json
  let kind ← required? members "kind" asText?
  let minimum? ← optional? members "minimum" asText?
  let maximum? ← optional? members "maximum" asText?
  let values? ← optional? members "values" (asList? asText?)
  some ⟨kind, minimum?, maximum?, values?⟩

/-! ## Children -/

def ChildEntry.toJson (entry : ChildEntry) : Json :=
  .object [("name", .string entry.name), ("type", .string entry.type),
    ("min_occurs", .natural entry.minOccurs.toNat), ("max_occurs", .word32OrNull entry.maxOccurs?)]

def ChildEntry.ofJson? (json : Json) : Option ChildEntry := do
  let members ← fields? ["name", "type", "min_occurs", "max_occurs"] 4 json
  let name ← required? members "name" asText?
  let type ← required? members "type" asText?
  let minOccurs ← required? members "min_occurs" asWord32?
  let maxOccurs? ← optional? members "max_occurs" asWord32?
  some ⟨name, type, minOccurs, maxOccurs?⟩

/-! ## Attributes -/

def AttributeEntry.toJson (entry : AttributeEntry) : Json :=
  .object ([("name", .string entry.name), ("type", .string entry.type),
    ("use", .string entry.usage), ("default", .stringOrNull entry.default?)] ++
    unlessNone "restriction" RestrictionEntry.toJson entry.restriction?)

def AttributeEntry.ofJson? (json : Json) : Option AttributeEntry := do
  let members ← fields? ["name", "type", "use", "default", "restriction"] 5 json
  let name ← required? members "name" asText?
  let type ← required? members "type" asText?
  let usage ← required? members "use" asText?
  let default? ← optional? members "default" asText?
  let restriction? ← optional? members "restriction" RestrictionEntry.ofJson?
  some ⟨name, type, usage, default?, restriction?⟩

/-! ## Declarations -/

def ElementEntry.toJson (entry : ElementEntry) : Json :=
  .object ([("name", .string entry.name), ("qualified_name", .string entry.qualifiedName),
    ("clean_name", .string entry.cleanName), ("type", .stringOrNull entry.type?),
    ("is_complex", .bool entry.isComplex)] ++
    unlessNone "base" .string entry.base? ++
    [("min_occurs", .natural entry.minOccurs.toNat), ("max_occurs", .word32OrNull entry.maxOccurs?),
      ("mixed", .bool entry.isMixed)] ++
    unlessFalse "mixed_extension_error" entry.mixedMismatch ++
    unlessFalse "is_abstract" entry.isAbstract ++
    [("extended", .bool entry.isExtended)] ++
    unlessNone "restriction" RestrictionEntry.toJson entry.restriction? ++
    unlessEmpty "attributes" AttributeEntry.toJson entry.attributes ++
    unlessEmpty "child_elements" ChildEntry.toJson entry.children)

def ElementEntry.fieldNames : List String :=
  ["name", "qualified_name", "clean_name", "type", "is_complex", "base", "min_occurs", "max_occurs",
    "mixed", "mixed_extension_error", "is_abstract", "extended", "restriction", "attributes",
    "child_elements"]

def ElementEntry.ofJson? (json : Json) : Option ElementEntry := do
  let members ← fields? fieldNames 13 json
  let name ← required? members "name" asText?
  let qualifiedName ← required? members "qualified_name" asText?
  let cleanName ← required? members "clean_name" asText?
  let type? ← optional? members "type" asText?
  let isComplex ← required? members "is_complex" asBool?
  let base? ← optional? members "base" asText?
  let minOccurs ← required? members "min_occurs" asWord32?
  let maxOccurs? ← optional? members "max_occurs" asWord32?
  let isMixed ← required? members "mixed" asBool?
  let mixedMismatch ← defaulted? members "mixed_extension_error" false asBool?
  let isAbstract ← defaulted? members "is_abstract" false asBool?
  let isExtended ← required? members "extended" asBool?
  let restriction? ← optional? members "restriction" RestrictionEntry.ofJson?
  let attributes ← defaulted? members "attributes" [] (asList? AttributeEntry.ofJson?)
  let children ← defaulted? members "child_elements" [] (asList? ChildEntry.ofJson?)
  some
    { name, qualifiedName, cleanName, type?, isComplex, base?, minOccurs, maxOccurs?, isMixed,
      mixedMismatch, isAbstract, isExtended, restriction?, attributes, children }

/-! ## Simple types -/

def SimpleTypeEntry.toJson (entry : SimpleTypeEntry) : Json :=
  .object ([("name", .string entry.name), ("base_type", .stringOrNull entry.base?)] ++
    unlessFalse "is_list" entry.isList ++
    unlessEmpty "union_members" .string entry.members ++
    unlessFalse "collapse_whitespace" entry.collapsesSpace ++
    unlessNone "restriction" RestrictionEntry.toJson entry.restriction?)

def SimpleTypeEntry.ofJson? (json : Json) : Option SimpleTypeEntry := do
  let members ← fields?
    ["name", "base_type", "is_list", "union_members", "collapse_whitespace", "restriction"] 6 json
  let name ← required? members "name" asText?
  let base? ← optional? members "base_type" asText?
  let isList ← defaulted? members "is_list" false asBool?
  let unionMembers ← defaulted? members "union_members" [] (asList? asText?)
  let collapsesSpace ← defaulted? members "collapse_whitespace" false asBool?
  let restriction? ← optional? members "restriction" RestrictionEntry.ofJson?
  some ⟨name, base?, isList, unionMembers, collapsesSpace, restriction?⟩

/-! ## Substitution groups -/

def SubstitutionEntry.toJson (entry : SubstitutionEntry) : Json :=
  .object [("head", .string entry.head), ("members", .strings entry.members)]

def SubstitutionEntry.ofJson? (json : Json) : Option SubstitutionEntry := do
  let members ← fields? ["head", "members"] 2 json
  let head ← required? members "head" asText?
  let substitutes ← required? members "members" (asList? asText?)
  some ⟨head, substitutes⟩

/-! ## Dumps -/

def toJson (dump : Dump) : Json :=
  .object [("target_namespace", .stringOrNull dump.targetNamespace?),
    ("xsd_prefix", .string dump.qualifier),
    ("elements", .array (dump.elements.map ElementEntry.toJson)),
    ("simple_types", .array (dump.simpleTypes.map SimpleTypeEntry.toJson)),
    ("substitution_groups", .array (dump.substitutionGroups.map SubstitutionEntry.toJson)),
    ("warnings", .strings dump.warnings)]

def ofJson? (json : Json) : Option Dump := do
  let members ← fields?
    ["target_namespace", "xsd_prefix", "elements", "simple_types", "substitution_groups",
      "warnings"] 6 json
  let targetNamespace? ← optional? members "target_namespace" asText?
  let qualifier ← required? members "xsd_prefix" asText?
  let elements ← required? members "elements" (asList? ElementEntry.ofJson?)
  let simpleTypes ← required? members "simple_types" (asList? SimpleTypeEntry.ofJson?)
  let substitutionGroups ←
    required? members "substitution_groups" (asList? SubstitutionEntry.ofJson?)
  let warnings ← required? members "warnings" (asList? asText?)
  some ⟨targetNamespace?, qualifier, elements, simpleTypes, substitutionGroups, warnings⟩

def render (dump : Dump) : String := dump.toJson.render .lines

def parse? (text : String) : Option Dump := (Json.parse text).bind ofJson?

end XmlSchema.Dump
