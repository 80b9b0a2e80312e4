/-!
# Decimal numerals

`natural?` reads digits alone. `word32?` reads an occurrence bound: an optional plus sign before
digits whose value fits 32 bits.
-/

namespace XmlSchema.Text

def digit? (c : Char) : Option Nat :=
  if '0' ≤ c ∧ c ≤ '9' then some (c.toNat - '0'.toNat) else none

def natural? (characters : List Char) : Option Nat :=
  if characters.isEmpty then none
  else characters.foldlM (fun value c => (digit? c).map (value * 10 + ·)) 0

/-- A number that fits 32 bits, written in digits after an optional plus sign. -/
def word32? (text : String) : Option UInt32 :=
  let digits :=
    match text.toList with
    | '+' :: rest => rest
    | characters => characters
  match natural? digits with
  | some value => if value < UInt32.size then some (UInt32.ofNat value) else none
  | none => none

example : word32? "+4294967295" = some 4294967295 := by decide +kernel

example : ["", "+", "-1", "++1", "1 ", "4294967296", "1_0"].all (word32? · = none) := by
  decide +kernel

end XmlSchema.Text
