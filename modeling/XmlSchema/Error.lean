import XmlSchema.Limits
import XmlSchema.Xml.Event
import XmlSchema.Xml.Location

/-!
# Errors

The problems that end a compilation, as causes. The wording of each cause is a function of its own,
and `Error.message` puts the lead of the error's kind in front of it.
-/

namespace XmlSchema

/-- Why a document gives no tree of declarations. -/
inductive MalformedCause where
  /-- The markup itself. -/
  | markup (fault : Xml.Fault)
  /-- The document ends inside a tag. -/
  | unexpectedEnd
  /-- A closing without a tag. -/
  | strayClosing
  /-- The schema closes while other nodes are open, or none is. -/
  | unbalanced (openNodes : Nat)
  /-- The document has no schema. -/
  | noSchema
deriving DecidableEq

def MalformedCause.message : MalformedCause → String
  | .markup fault => fault.message
  | .unexpectedEnd => "unexpected end of document"
  | .strayClosing => "end tag without start tag"
  | .unbalanced openNodes => s!"unbalanced node stack: {openNodes} open nodes"
  | .noSchema => "document contains no schema element"

/-- A document that gives no tree: the tag at fault, the cause, and the place where it is known. -/
structure Malformed where
  construct : String
  cause : MalformedCause
  location? : Option Xml.Location
deriving DecidableEq

/-- The wording of a problem with a tag, at a place if it is known. -/
def Malformed.describe (construct detail : String) (place? : Option String) : String :=
  let place :=
    match place? with
    | some place => s!" (at {place})"
    | none => ""
  s!"<{construct}>: {detail}{place}"

def Malformed.message (malformed : Malformed) : String :=
  describe malformed.construct malformed.cause.message (malformed.location?.map Xml.Location.render)

/-- Why the declarations of a schema have no consistent meaning. -/
inductive SemanticCause where
  | unknownType (name : String)
  | noBase (simpleType : String)
  | endlessChain (simpleType : String)
  | unknownAttributeType (name : String)
  | minOccurs (value : String)
  | maxOccurs (value : String)
  | crossedBounds (minimum maximum : UInt32)
  | cyclicInheritance (base : String) (limit : Nat)
deriving DecidableEq

def SemanticCause.message : SemanticCause → String
  | .unknownType name => s!"unknown type '{name}'"
  | .noBase simpleType => s!"simple type '{simpleType}' has no base"
  | .endlessChain simpleType => s!"simple type chain from '{simpleType}' does not terminate"
  | .unknownAttributeType name => s!"unknown attribute type '{name}'"
  | .minOccurs value => s!"minOccurs must be an integer, found '{value}'"
  | .maxOccurs value => s!"maxOccurs must be an integer or \"unbounded\", found '{value}'"
  | .crossedBounds minimum maximum =>
      s!"minOccurs {minimum.toNat} exceeds maxOccurs {maximum.toNat}"
  | .cyclicInheritance base limit =>
      s!"likely cyclic definition: inheritance through '{base}' exceeds {limit} levels"

/-- A declaration without a consistent meaning. -/
structure Inconsistency where
  node : String
  cause : SemanticCause
deriving DecidableEq

def Inconsistency.describe (node reason : String) : String := s!"'{node}': {reason}"

def Inconsistency.message (inconsistency : Inconsistency) : String :=
  describe inconsistency.node inconsistency.cause.message

/-- What an error is about. -/
inductive ErrorKind where
  | malformed
  | semantic
  | resource
  | limit
  | io
deriving DecidableEq

def ErrorKind.announce (kind : ErrorKind) (detail : String) : String :=
  let lead :=
    match kind with
    | .malformed => "malformed schema"
    | .semantic => "schema semantic error"
    | .resource => "resource error"
    | .limit => "limit exceeded"
    | .io => "I/O error"
  s!"{lead}: {detail}"

/-- A problem that ends a compilation. -/
inductive Error where
  | malformed (problem : Malformed)
  | semantic (problem : Inconsistency)
  /-- A file that cannot be read, and the system's reason. -/
  | resource (path reason : String)
  | limit (fault : LimitFault)
  /-- A stream that fails, and the system's reason. -/
  | io (reason : String)
deriving DecidableEq

namespace Error

def kind : Error → ErrorKind
  | .malformed _ => .malformed
  | .semantic _ => .semantic
  | .resource .. => .resource
  | .limit _ => .limit
  | .io _ => .io

def detail : Error → String
  | .malformed problem => problem.message
  | .semantic problem => problem.message
  | .resource path reason => s!"Failed to read file '{path}': {reason}"
  | .limit fault => fault.message
  | .io reason => reason

def message (error : Error) : String := error.kind.announce error.detail

end Error

end XmlSchema
