/-!
# JSON values

A value as its text gives it: members stay in the order in which they are written. A value that no
field of a record can hold is kept as written: it can be passed over and written again, and nothing
can be read from it.
-/

namespace XmlSchema

/-- A JSON value. -/
inductive Json where
  | null
  | bool (value : Bool)
  | integer (value : Int)
  /-- A number with a fraction or an exponent, a negative zero, a text with an escape that names
  half of a surrogate pair, or an object with such a text for the name of a member. -/
  | verbatim (written : String)
  | string (text : String)
  | array (items : List Json)
  | object (members : List (String × Json))

namespace Json

/-- The value to which an unspecified one defaults. -/
instance : Inhabited Json := ⟨.null⟩

def strings (texts : List String) : Json := .array (texts.map .string)

def natural (value : Nat) : Json := .integer value

/-- A text, or null where there is none. -/
def stringOrNull : Option String → Json
  | some text => .string text
  | none => .null

/-- A value of 32 bits, or null where there is none. -/
def word32OrNull : Option UInt32 → Json
  | some value => natural value.toNat
  | none => .null

end Json

end XmlSchema
