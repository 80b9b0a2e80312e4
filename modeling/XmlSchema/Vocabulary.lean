import XmlSchema.Builtin
import XmlSchema.Construct
import XmlSchema.Namespace

/-!
# The vocabulary of a document

A document names constructs and built-in types under the qualifier to which it binds the schema
language, such as `xs:`. A vocabulary reads and writes such names.
-/

namespace XmlSchema

/-- The names of constructs and built-in types under a qualifier. -/
structure Vocabulary where
  /-- The qualifier with its colon, or nothing. -/
  qualifier : String
deriving DecidableEq

namespace Vocabulary

/-- The vocabulary of a document whose qualifier is not known. -/
def standard : Vocabulary := ⟨"xs:"⟩

def classify (vocabulary : Vocabulary) (tag : String) : Construct :=
  match afterLead? vocabulary.qualifier tag with
  | some name => if Namespace.isQualified name then .other else .ofLocalName name
  | none => .other

/-- Whether a name carries the qualifier, which an empty qualifier never lets it do. -/
def qualifies (vocabulary : Vocabulary) (name : String) : Bool :=
  vocabulary.qualifier != "" && (afterLead? vocabulary.qualifier name).isSome

def builtin? (vocabulary : Vocabulary) (name : String) : Option Builtin :=
  (afterLead? vocabulary.qualifier name).bind Builtin.ofLocalName?

def isBuiltin (vocabulary : Vocabulary) (name : String) : Bool := (vocabulary.builtin? name).isSome

def qualify (vocabulary : Vocabulary) (type : Builtin) : String :=
  vocabulary.qualifier ++ type.localName

/-- The name of the string type, which stands in for types that cannot be resolved. -/
def stringType (vocabulary : Vocabulary) : String := vocabulary.qualify .string

/-- A reference to a type as the tables know it: a built-in name as it is, any other name without
its namespace. -/
def tableName (vocabulary : Vocabulary) (reference : String) : String :=
  if vocabulary.isBuiltin reference then reference else Namespace.localPart reference

end Vocabulary

end XmlSchema
