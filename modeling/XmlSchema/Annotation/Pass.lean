import XmlSchema.Annotation.AttributeTypes
import XmlSchema.Annotation.Declarations
import XmlSchema.Annotation.DistinctNames
import XmlSchema.Annotation.Groups
import XmlSchema.Annotation.Index
import XmlSchema.Annotation.MixedContent
import XmlSchema.Annotation.Resolution

/-!
# The passes of annotation

Annotation turns a tree as it was read into declarations with resolved types. It consists of passes,
each of which goes over the whole tree; `annotate` runs all of them in order and ends with the first
that halts.
-/

namespace XmlSchema

/-- A pass over a tree. -/
inductive Pass where
  | expandGroups
  | indexElements
  | resolveTypes
  | completeDeclarations
  | separateAttributes
  | resolveAttributeTypes
  | checkMixedContent
  | markExtended
deriving DecidableEq

namespace Pass

/-- The passes in the order in which annotation runs them. -/
def all : List Pass :=
  [.expandGroups, .indexElements, .resolveTypes, .completeDeclarations, .separateAttributes,
   .resolveAttributeTypes, .checkMixedContent, .markExtended]

/-- Runs a pass over the tree below a root. -/
def run (root : NodeId) (context : Context) : Pass → Except (Halt Error) Context
  | .expandGroups => XmlSchema.expandGroups root context
  | .indexElements => .ok (XmlSchema.indexElements root context)
  | .resolveTypes => XmlSchema.resolveTypes root context
  | .completeDeclarations => XmlSchema.completeDeclarations root context
  | .separateAttributes => XmlSchema.separateAttributes root context
  | .resolveAttributeTypes => XmlSchema.resolveAttributeTypes root context
  | .checkMixedContent => XmlSchema.checkMixedContent root context
  | .markExtended => .ok (XmlSchema.markExtended root context)

end Pass

/-- Annotates the tree below a root. -/
def annotate (root : NodeId) (context : Context) : Except (Halt Error) Context :=
  Pass.all.foldlM (fun context pass => pass.run root context) context

end XmlSchema
