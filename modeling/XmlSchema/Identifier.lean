import XmlSchema.Table

/-!
# Identifiers

Names of a schema may hold characters that identifiers of other languages cannot. `clean` replaces
them, and `Renames` moves clean names that are reserved words out of the way.
-/

namespace XmlSchema

/-- A character of an identifier: colon, hyphen and full stop become an underscore. -/
def cleanChar (c : Char) : Char := if c = ':' ∨ c = '-' ∨ c = '.' then '_' else c

def clean (name : String) : String := String.ofList (name.toList.map cleanChar)

@[simp] theorem length_clean (name : String) : (clean name).length = name.length := by
  simp [clean, ← String.length_toList]

/-- What reserved identifiers are called instead. -/
structure Renames where
  table : Table String
deriving DecidableEq

namespace Renames

/-- No renames. -/
def empty : Renames := ⟨.empty⟩

/-- The renames in effect unless others are given. -/
def standard : Renames :=
  ⟨.ofList [("type", "type_"), ("float", "float_"), ("build", "build_")]⟩

/-- Adds a rename, or replaces that of the same identifier. -/
def insert (renames : Renames) (old new : String) : Renames := ⟨renames.table.insert old new⟩

def apply (renames : Renames) (identifier : String) : String :=
  (renames.table.find? identifier).getD identifier

/-- Whether two collections of renames agree on every identifier they mention, in whatever order. -/
def sameEntries (left right : Renames) : Bool :=
  left.table.size == right.table.size &&
    left.table.entries.all fun (old, new) => right.table.find? old == some new

end Renames

end XmlSchema
