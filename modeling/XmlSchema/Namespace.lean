import XmlSchema.Table

/-!
# Namespaces

A qualified name has its local part after the last colon. `Namespaces` holds the bindings that a
document declares, and `detectQualifier?` finds the qualifier under which a document uses the schema
language.
-/

namespace XmlSchema

/-- What follows `lead` in a text that begins with it. -/
def afterLead? (lead text : String) : Option String :=
  (lead.toList.isPrefixOf? text.toList).map String.ofList

namespace Namespace

def version10 : String := "http://www.w3.org/2001/XMLSchema"

def version11 : String := "http://www.w3.org/2009/XMLSchema"

def isSchema (uri : String) : Bool := uri == version10 || uri == version11

/-- The part of a name after its last colon. -/
def localPart (name : String) : String :=
  String.ofList (name.toList.reverse.takeWhile (· != ':')).reverse

def isQualified (name : String) : Bool := name.toList.contains ':'

/-- A name in the form `{namespace}local`, or the local name alone outside any namespace. -/
def expandedName (namespace? : Option String) (localName : String) : String :=
  match namespace? with
  | some uri => "\x7b" ++ uri ++ "\x7d" ++ localName
  | none => localName

/-- The qualifier, with its colon, under which the first tag of a document and its attributes bind
the schema language: that of the first attribute that binds its namespace; else the empty one when
the tag is unqualified; else none. -/
def detectQualifier? (tag : String) (attributes : List (String × String)) : Option String :=
  let binding := attributes.findSome? fun (key, value) =>
    if isSchema value then afterLead? "xmlns:" key else none
  match binding with
  | some name => some (name ++ ":")
  | none => if isQualified tag then none else some ""

end Namespace

/-- The namespace bindings that a document declares. -/
structure Namespaces where
  bindings : Table String
  default? : Option String
deriving DecidableEq

namespace Namespaces

/-- No bindings. -/
def empty : Namespaces := ⟨.empty, none⟩

def bind (namespaces : Namespaces) (name uri : String) : Namespaces :=
  { namespaces with bindings := namespaces.bindings.insert name uri }

def bindDefault (namespaces : Namespaces) (uri : String) : Namespaces :=
  { namespaces with default? := some uri }

/-- The namespace bound to a name. -/
def uri? (namespaces : Namespaces) (name : String) : Option String := namespaces.bindings.find? name

/-- The first name bound to a namespace. -/
def name? (namespaces : Namespaces) (uri : String) : Option String :=
  (namespaces.bindings.entries.find? (·.2 == uri)).map Prod.fst

end Namespaces

end XmlSchema
