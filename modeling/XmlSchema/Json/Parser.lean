import XmlSchema.Json.Basic
import XmlSchema.Text.Numeral

/-!
# Reading JSON

`parse` accepts the texts of the JSON grammar and nothing more: no comments, no trailing commas, no
leading zeros and no control characters inside a text. Blanks around tokens are the four of the
grammar. A text in which half of a surrogate pair is escaped is within the grammar, but it is no
string of characters, so it is kept as written.

The readers take the characters that remain and give back what they read with the characters after
it. The readers of nested values count down a bound that the length of the text provides.
-/

namespace XmlSchema.Json

def isTokenBlank (c : Char) : Bool := c = ' ' || c = '\n' || c = '\t' || c = '\r'

def skipBlanks (input : List Char) : List Char := input.dropWhile isTokenBlank

def hexValue? (c : Char) : Option Nat :=
  if '0' ≤ c ∧ c ≤ '9' then some (c.toNat - '0'.toNat)
  else if 'a' ≤ c ∧ c ≤ 'f' then some (c.toNat - 'a'.toNat + 10)
  else if 'A' ≤ c ∧ c ≤ 'F' then some (c.toNat - 'A'.toNat + 10)
  else none

def codeUnit? (a b c d : Char) : Option Nat := do
  let a ← hexValue? a
  let b ← hexValue? b
  let c ← hexValue? c
  let d ← hexValue? d
  some (((a * 16 + b) * 16 + c) * 16 + d)

def escaped? : Char → Option Char
  | '"' => some '"'
  | '\\' => some '\\'
  | '/' => some '/'
  | 'b' => some '\x08'
  | 'f' => some '\x0c'
  | 'n' => some '\n'
  | 'r' => some '\r'
  | 't' => some '\t'
  | _ => none

/-- A text after its opening quotation mark, absent when it escapes half of a surrogate pair.
`read?` holds its characters so far, the last one first. -/
def stringBody (read? : Option (List Char)) : List Char → Option (Option String × List Char)
  | [] => none
  | '"' :: rest => some (read?.map fun read => String.ofList read.reverse, rest)
  | '\\' :: 'u' :: a :: b :: c :: d :: rest =>
      match codeUnit? a b c d with
      | none => none
      | some unit =>
          if 0xD800 ≤ unit ∧ unit < 0xDC00 then
            match rest with
            | '\\' :: 'u' :: e :: f :: g :: h :: behind =>
                match codeUnit? e f g h with
                | none => none
                | some second =>
                    if 0xDC00 ≤ second ∧ second < 0xE000 then
                      let code := 0x10000 + (unit - 0xD800) * 0x400 + (second - 0xDC00)
                      stringBody (read?.map (Char.ofNat code :: ·)) behind
                    else stringBody none behind
            | behind => stringBody none behind
          else if 0xDC00 ≤ unit ∧ unit < 0xE000 then stringBody none rest
          else stringBody (read?.map (Char.ofNat unit :: ·)) rest
  | '\\' :: c :: rest =>
      match escaped? c with
      | some character => stringBody (read?.map (character :: ·)) rest
      | none => none
  | c :: rest => if c.toNat < 0x20 then none else stringBody (read?.map (c :: ·)) rest
termination_by input => input.length

/-- What was read of an input of which `rest` remains, as it was written. -/
def writtenUpTo (input rest : List Char) : String :=
  String.ofList (input.take (input.length - rest.length))

/-- A text whose opening quotation mark stands before the input. -/
def readString (input : List Char) : Option (Json × List Char) :=
  match stringBody (some []) input with
  | none => none
  | some (some text, rest) => some (.string text, rest)
  | some (none, rest) => some (.verbatim (writtenUpTo ('"' :: input) rest), rest)

/-- The members of an object, absent when one of them has no name that is a string of characters. -/
def named? (members : List (Option String × Json)) : Option (List (String × Json)) :=
  members.mapM fun (name?, member) => name?.map (·, member)

/-- A non-empty run of digits, and what follows it. -/
def digitRun? (input : List Char) : Option (List Char × List Char) :=
  let digits := input.takeWhile Char.isDigit
  if digits.isEmpty then none else some (digits, input.dropWhile Char.isDigit)

/-- The integer part of a number: digits without a needless leading zero. -/
def integerPart? (input : List Char) : Option (List Char × List Char) :=
  match digitRun? input with
  | some ('0' :: _ :: _, _) => none
  | part => part

/-- The fraction of a number with its point, where there is one. -/
def fractionPart? : List Char → Option (List Char × List Char)
  | '.' :: rest => (digitRun? rest).map fun (digits, rest) => ('.' :: digits, rest)
  | input => some ([], input)

/-- The exponent of a number with its letter and sign, where there is one. -/
def exponentPart? : List Char → Option (List Char × List Char)
  | c :: rest =>
      if c = 'e' ∨ c = 'E' then
        match rest with
        | '+' :: rest => (digitRun? rest).map fun (digits, rest) => (c :: '+' :: digits, rest)
        | '-' :: rest => (digitRun? rest).map fun (digits, rest) => (c :: '-' :: digits, rest)
        | _ => (digitRun? rest).map fun (digits, rest) => (c :: digits, rest)
      else some ([], c :: rest)
  | [] => some ([], [])

/-- A number without its sign. -/
def readUnsigned (negative : Bool) (input : List Char) : Option (Json × List Char) := do
  let (digits, rest) ← integerPart? input
  let (fractional, rest) ← fractionPart? rest
  let (exponent, rest) ← exponentPart? rest
  let value ← Text.natural? digits
  if fractional.isEmpty && exponent.isEmpty && !(negative && value == 0) then
    some (.integer (if negative then -(value : Int) else value), rest)
  else
    let sign := if negative then ['-'] else []
    some (.verbatim (String.ofList (sign ++ digits ++ fractional ++ exponent)), rest)

def readNumber : List Char → Option (Json × List Char)
  | '-' :: rest => readUnsigned true rest
  | input => readUnsigned false input

mutual

def readValue : Nat → List Char → Option (Json × List Char)
  | 0, _ => none
  | bound + 1, input =>
      match skipBlanks input with
      | 'n' :: 'u' :: 'l' :: 'l' :: rest => some (.null, rest)
      | 't' :: 'r' :: 'u' :: 'e' :: rest => some (.bool true, rest)
      | 'f' :: 'a' :: 'l' :: 's' :: 'e' :: rest => some (.bool false, rest)
      | '"' :: rest => readString rest
      | '[' :: rest =>
          match skipBlanks rest with
          | ']' :: rest => some (.array [], rest)
          | rest => (readItems bound rest).map fun (items, rest) => (.array items, rest)
      | '{' :: inside =>
          match skipBlanks inside with
          | '}' :: rest => some (.object [], rest)
          | first =>
              match readMembers bound first with
              | none => none
              | some (members, rest) =>
                  match named? members with
                  | some members => some (.object members, rest)
                  | none => some (.verbatim (writtenUpTo ('{' :: inside) rest), rest)
      | rest => readNumber rest

/-- The items of an array from one of them on, up to the closing bracket. -/
def readItems : Nat → List Char → Option (List Json × List Char)
  | 0, _ => none
  | bound + 1, input =>
      match readValue bound input with
      | none => none
      | some (item, rest) =>
          match skipBlanks rest with
          | ']' :: rest => some ([item], rest)
          | ',' :: rest =>
              (readItems bound rest).map fun (items, rest) => (item :: items, rest)
          | _ => none

/-- The members of an object from one of them on, up to the closing brace. -/
def readMembers : Nat → List Char → Option (List (Option String × Json) × List Char)
  | 0, _ => none
  | bound + 1, input =>
      match skipBlanks input with
      | '"' :: rest =>
          match stringBody (some []) rest with
          | none => none
          | some (name?, rest) =>
              match skipBlanks rest with
              | ':' :: rest =>
                  match readValue bound rest with
                  | none => none
                  | some (member, rest) =>
                      match skipBlanks rest with
                      | '}' :: rest => some ([(name?, member)], rest)
                      | ',' :: rest =>
                          (readMembers bound rest).map fun (members, rest) =>
                            ((name?, member) :: members, rest)
                      | _ => none
              | _ => none
      | _ => none

end

def parse (text : String) : Option Json :=
  let input := text.toList
  match readValue (input.length + 1) input with
  | some (result, rest) => if (skipBlanks rest).isEmpty then some result else none
  | none => none

end XmlSchema.Json
