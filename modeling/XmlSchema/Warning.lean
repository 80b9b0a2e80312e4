import XmlSchema.Construct

/-!
# Warnings

Problems that a compilation survives. Each kind has a lead and each warning a detail behind it; the
details that the compilation writes are made here.
-/

namespace XmlSchema

/-- What a warning is about. -/
inductive WarningKind where
  | circularGroupReference
  /-- A reference to a group that is not defined. -/
  | undefinedGroup
  /-- A reference to an attribute group that is not defined. -/
  | undefinedAttributeGroup
  | circularAttributeGroup
  /-- A facet without a value. -/
  | missingFacetValue
  /-- A bound that is not a number. -/
  | invalidFacetValue
  /-- A facet with no declaration to belong to. -/
  | detachedFacet
  /-- A type that extends a mixed type and is not mixed itself. -/
  | mixedContentMismatch
deriving DecidableEq

def WarningKind.lead : WarningKind → String
  | .circularGroupReference => "circular group reference"
  | .undefinedGroup => "undefined group"
  | .undefinedAttributeGroup => "undefined attribute group"
  | .circularAttributeGroup => "circular attribute group"
  | .missingFacetValue => "missing facet value"
  | .invalidFacetValue => "invalid facet value"
  | .detachedFacet => "detached facet"
  | .mixedContentMismatch => "mixed content mismatch"

/-- A problem that a compilation survives. -/
structure Warning where
  kind : WarningKind
  detail : String
deriving DecidableEq

namespace Warning

def message (warning : Warning) : String := s!"{warning.kind.lead}: {warning.detail}"

/-- A group reference in `owner` that leads back to a group being expanded. -/
def circularGroup (reference owner : String) : Warning :=
  ⟨.circularGroupReference, s!"'{reference}' referenced from '{owner}'"⟩

/-- A group reference in `owner` without a definition. -/
def undefinedGroup (reference owner : String) : Warning :=
  ⟨.undefinedGroup, s!"'{reference}' referenced from '{owner}'"⟩

/-- A reference to an attribute group without a definition, reached from `owner`. -/
def undefinedAttributeGroup (reference owner : String) : Warning :=
  ⟨.undefinedAttributeGroup, s!"'{reference}' referenced from '{owner}'"⟩

def circularAttributeGroup (name : String) : Warning :=
  ⟨.circularAttributeGroup, s!"'{name}' includes itself"⟩

/-- A facet without a value inside the named node. -/
def missingFacetValue (facet : Construct) (name : String) : Warning :=
  ⟨.missingFacetValue, s!"{facet.label} without value in '{name}'"⟩

/-- A bound whose value is not a decimal. -/
def invalidFacetValue (value : String) : Warning :=
  ⟨.invalidFacetValue, s!"'{value}' is not a numeric bound"⟩

/-- A facet outside every declaration. -/
def detachedFacet (value : String) : Warning :=
  ⟨.detachedFacet, s!"facet value '{value}' has no enclosing declaration"⟩

/-- A declaration whose content is mixed otherwise than that of its base. -/
def mixedContentMismatch (name base : String) : Warning :=
  ⟨.mixedContentMismatch, s!"'{name}' extends '{base}' with different mixed content"⟩

end Warning

end XmlSchema
