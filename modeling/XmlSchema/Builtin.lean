/-!
# Built-in types

The closed set of simple types that every schema knows, each with its local name and the broad
category of its values. A local name denotes at most one of them: `ofLocalName?_localName`.
-/

namespace XmlSchema

/-- The broad category of a type's values. -/
inductive Category where
  | string
  | integer
  | decimal
  | float
  | boolean
  /-- Dates, times and durations. -/
  | temporal
  | any
deriving DecidableEq

/-- A built-in simple type. -/
inductive Builtin where
  | string
  | normalizedString
  | token
  | language
  | name
  | ncName
  | qName
  | id
  | idref
  | idrefs
  | entity
  | entities
  | nmtoken
  | nmtokens
  | notationName
  | anyURI
  | base64Binary
  | hexBinary
  | boolean
  | decimal
  | integer
  | long
  | int
  | short
  | byte
  | nonNegativeInteger
  | positiveInteger
  | nonPositiveInteger
  | negativeInteger
  | unsignedLong
  | unsignedInt
  | unsignedShort
  | unsignedByte
  | float
  | double
  | duration
  | dateTime
  | time
  | date
  | gYearMonth
  | gYear
  | gMonthDay
  | gDay
  | gMonth
  | anySimpleType
  | anyType
deriving DecidableEq

namespace Builtin

def all : List Builtin :=
  [.string, .normalizedString, .token, .language, .name, .ncName, .qName, .id, .idref, .idrefs,
   .entity, .entities, .nmtoken, .nmtokens, .notationName, .anyURI, .base64Binary, .hexBinary,
   .boolean, .decimal, .integer, .long, .int, .short, .byte, .nonNegativeInteger,
   .positiveInteger, .nonPositiveInteger, .negativeInteger, .unsignedLong, .unsignedInt,
   .unsignedShort, .unsignedByte, .float, .double, .duration, .dateTime, .time, .date,
   .gYearMonth, .gYear, .gMonthDay, .gDay, .gMonth, .anySimpleType, .anyType]

/-- The name of a built-in type, without a namespace. -/
def localName : Builtin → String
  | .string => "string"
  | .normalizedString => "normalizedString"
  | .token => "token"
  | .language => "language"
  | .name => "Name"
  | .ncName => "NCName"
  | .qName => "QName"
  | .id => "ID"
  | .idref => "IDREF"
  | .idrefs => "IDREFS"
  | .entity => "ENTITY"
  | .entities => "ENTITIES"
  | .nmtoken => "NMTOKEN"
  | .nmtokens => "NMTOKENS"
  | .notationName => "NOTATION"
  | .anyURI => "anyURI"
  | .base64Binary => "base64Binary"
  | .hexBinary => "hexBinary"
  | .boolean => "boolean"
  | .decimal => "decimal"
  | .integer => "integer"
  | .long => "long"
  | .int => "int"
  | .short => "short"
  | .byte => "byte"
  | .nonNegativeInteger => "nonNegativeInteger"
  | .positiveInteger => "positiveInteger"
  | .nonPositiveInteger => "nonPositiveInteger"
  | .negativeInteger => "negativeInteger"
  | .unsignedLong => "unsignedLong"
  | .unsignedInt => "unsignedInt"
  | .unsignedShort => "unsignedShort"
  | .unsignedByte => "unsignedByte"
  | .float => "float"
  | .double => "double"
  | .duration => "duration"
  | .dateTime => "dateTime"
  | .time => "time"
  | .date => "date"
  | .gYearMonth => "gYearMonth"
  | .gYear => "gYear"
  | .gMonthDay => "gMonthDay"
  | .gDay => "gDay"
  | .gMonth => "gMonth"
  | .anySimpleType => "anySimpleType"
  | .anyType => "anyType"

/-- The built-in type of a name without namespace. -/
def ofLocalName? (name : String) : Option Builtin := all.find? (·.localName == name)

def category : Builtin → Category
  | .boolean => .boolean
  | .decimal => .decimal
  | .float | .double => .float
  | .integer | .long | .int | .short | .byte | .nonNegativeInteger | .positiveInteger
  | .nonPositiveInteger | .negativeInteger | .unsignedLong | .unsignedInt | .unsignedShort
  | .unsignedByte => .integer
  | .duration | .dateTime | .time | .date | .gYearMonth | .gYear | .gMonthDay | .gDay
  | .gMonth => .temporal
  | .anySimpleType | .anyType => .any
  | _ => .string

def isIdentity (type : Builtin) : Bool := type = .id || type = .idref || type = .idrefs

theorem mem_all (type : Builtin) : type ∈ all := by cases type <;> decide

/-- Every built-in type is found under its name. -/
theorem ofLocalName?_localName (type : Builtin) : ofLocalName? type.localName = some type := by
  cases type <;> decide +kernel

/-- What is found under a name bears that name. -/
theorem localName_of_ofLocalName? {name : String} {type : Builtin}
    (found : ofLocalName? name = some type) : type.localName = name := by
  simpa using List.find?_some found

end Builtin

end XmlSchema
