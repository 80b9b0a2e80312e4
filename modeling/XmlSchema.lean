import XmlSchema.Main
import XmlSchema.Proofs.Reachability
import XmlSchema.Proofs.AttributeGroups
import XmlSchema.Proofs.AttributeTypes
import XmlSchema.Proofs.BuiltinTypes
import XmlSchema.Proofs.InlineTypes
import XmlSchema.Proofs.Policy.Guards
import XmlSchema.Proofs.Policy.Refinement
import XmlSchema.Proofs.References
import XmlSchema.Proofs.Refusals
import XmlSchema.Proofs.StrictTypes
import XmlSchema.Proofs.Structure
import XmlSchema.Proofs.Tree.Document
import XmlSchema.Proofs.Facets.Owners
import XmlSchema.Proofs.Groups.Cycles
import XmlSchema.Proofs.Groups.Flattening
import XmlSchema.Proofs.Consistency.Sessions
import XmlSchema.Proofs.Groups.Inlining
import XmlSchema.Proofs.Dump.RoundTrip
import XmlSchema.Proofs.Inheritance.Distinctness
import XmlSchema.Proofs.Inheritance.Repetition
import XmlSchema.Proofs.Inheritance.SimpleBases
import XmlSchema.Proofs.Resolution.Aliases
import XmlSchema.Proofs.Resolution.Lists
import XmlSchema.Proofs.Resolution.Order
import XmlSchema.Proofs.SchemaTags
import XmlSchema.Proofs.Traversal
import XmlSchema.Proofs.Exposure
import XmlSchema.Proofs.Sources
import XmlSchema.Proofs.Occurrence
import XmlSchema.Proofs.Occurrence.Unbounded
