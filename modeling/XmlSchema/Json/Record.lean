import XmlSchema.Json.Basic

/-!
# Records in JSON

A record is written as an object with a member for each field, in the order of the fields. When it
is read, members may come in any order and members that are no fields are passed over, but no field
may come twice. A field is required, or optional with null for its absence, or has a default for its
absence. An array of the fields in their order is read as well; in it, only the last fields may be
missing, and only as far as they have defaults.
-/

namespace XmlSchema.Json

abbrev Members := List (String × Json)

/-- The members of a record with fields of these names, of which the first `positional` have to be
there when they are told apart by their places alone. -/
def fields? (names : List String) (positional : Nat) : Json → Option Members
  | .object members =>
      if names.all fun name => (members.filter (·.1 == name)).length ≤ 1 then some members else none
  | .array items =>
      if positional ≤ items.length ∧ items.length ≤ names.length then some (names.zip items)
      else none
  | _ => none

/-! ## Reading values -/

def asText? : Json → Option String
  | .string text => some text
  | _ => none

def asBool? : Json → Option Bool
  | .bool value => some value
  | _ => none

def asWord32? : Json → Option UInt32
  | .integer value =>
      if 0 ≤ value ∧ value.toNat < UInt32.size then some (UInt32.ofNat value.toNat) else none
  | _ => none

/-- A list, item by item. -/
def asList? {α : Type} (read : Json → Option α) : Json → Option (List α)
  | .array items => items.mapM read
  | _ => none

/-! ## Reading fields -/

def required? {α : Type} (members : Members) (name : String) (read : Json → Option α) : Option α :=
  (members.lookup name).bind read

/-- A field that may be absent or null. -/
def optional? {α : Type} (members : Members) (name : String) (read : Json → Option α) :
    Option (Option α) :=
  match members.lookup name with
  | none => some none
  | some .null => some none
  | some value => (read value).map some

def defaulted? {α : Type} (members : Members) (name : String) (absent : α)
    (read : Json → Option α) : Option α :=
  match members.lookup name with
  | none => some absent
  | some value => read value

/-! ## Writing fields -/

/-- A field that is left out when there is nothing to write. -/
def unlessNone {α : Type} (name : String) (write : α → Json) : Option α → Members
  | some value => [(name, write value)]
  | none => []

/-- A field that is left out when it is false. -/
def unlessFalse (name : String) (value : Bool) : Members :=
  if value then [(name, .bool true)] else []

/-- A field that is left out when it is the empty list. -/
def unlessEmpty {α : Type} (name : String) (write : α → Json) (items : List α) : Members :=
  if items.isEmpty then [] else [(name, .array (items.map write))]

end XmlSchema.Json
