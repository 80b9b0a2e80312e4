import XmlSchema.Text.Numeral
import XmlSchema.Text.Quoted
import XmlSchema.Text.Utf8

/-!
# References in text and attribute values

`&name;` stands for one of the five predefined characters and `&#…;` for the character of a code
point in decimal or, after an `x`, in hexadecimal. `expand` replaces the references of a text.
Positions in faults count the bytes of that text.
-/

namespace XmlSchema.Xml

/-- Why a reference cannot be expanded. `start` is the position of its ampersand and `stop` that of
its semicolon. -/
inductive ReferenceFault where
  | unterminated (start length : Nat)
  | decimalTooLong
  | hexadecimalTooLong
  | decimalDigit (byte : UInt8)
  | hexadecimalDigit (byte : UInt8)
  | nullCharacter (start stop : Nat)
  | codePoint (value : Nat)
  | unknownName (start stop : Nat) (name : String)
deriving DecidableEq

/-- The wording of a fault. A byte that is no digit is shown as the character of its value. -/
def ReferenceFault.message : ReferenceFault → String
  | .unterminated start length =>
      s!"Error while escaping character at range {start}..{length}: Cannot find ';' after '&'"
  | .decimalTooLong => "Cannot convert decimal to utf8"
  | .hexadecimalTooLong => "Cannot convert hexadecimal to utf8"
  | .decimalDigit byte => s!"'{Char.ofNat byte.toNat}' is not a valid decimal character"
  | .hexadecimalDigit byte => s!"'{Char.ofNat byte.toNat}' is not a valid hexadecimal character"
  | .nullCharacter start stop =>
      s!"Error while escaping character at range {start}..{stop}: Null character entity not allowed"
  | .codePoint value => s!"'{value}' is not a valid codepoint"
  | .unknownName start stop name =>
      s!"Error while escaping character at range {start + 1}..{stop}: " ++
        s!"Unrecognized escape symbol: {Text.quote name}"

def predefined? (name : String) : Option Char :=
  if name = "lt" then some '<'
  else if name = "gt" then some '>'
  else if name = "amp" then some '&'
  else if name = "apos" then some '\''
  else if name = "quot" then some '"'
  else none

def hexadecimalDigit? (byte : UInt8) : Option Nat :=
  let code := byte.toNat
  if 0x30 ≤ code ∧ code ≤ 0x39 then some (code - 0x30)
  else if 0x61 ≤ code ∧ code ≤ 0x66 then some (code - 0x61 + 10)
  else if 0x41 ≤ code ∧ code ≤ 0x46 then some (code - 0x41 + 10)
  else none

def decimalDigit? (byte : UInt8) : Option Nat :=
  let code := byte.toNat
  if 0x30 ≤ code ∧ code ≤ 0x39 then some (code - 0x30) else none

def decimalCode (digits : Bytes) : Except ReferenceFault Nat :=
  if digits.length > 7 then .error .decimalTooLong
  else
    digits.foldlM (fun code byte =>
      match decimalDigit? byte with
      | some digit => .ok (code * 10 + digit)
      | none => .error (.decimalDigit byte)) 0

def hexadecimalCode (digits : Bytes) : Except ReferenceFault Nat :=
  if digits.length > 6 then .error .hexadecimalTooLong
  else
    digits.foldlM (fun code byte =>
      match hexadecimalDigit? byte with
      | some digit => .ok (code * 16 + digit)
      | none => .error (.hexadecimalDigit byte)) 0

/-- The character that the name between ampersand and semicolon stands for. -/
def resolve (start stop : Nat) (name : List Char) : Except ReferenceFault Char :=
  match name with
  | '#' :: digits =>
      let code : Except ReferenceFault Nat :=
        match digits with
        | 'x' :: digits => hexadecimalCode (Text.Utf8.encode (String.ofList digits))
        | _ => decimalCode (Text.Utf8.encode (String.ofList digits))
      match code with
      | .error fault => .error fault
      | .ok 0 => .error (.nullCharacter start stop)
      | .ok value => if value.isValidChar then .ok (Char.ofNat value) else .error (.codePoint value)
  | _ =>
      match predefined? (String.ofList name) with
      | some c => .ok c
      | none => .error (.unknownName start stop (String.ofList name))

/-- Expands from byte `position` of a text of `length` bytes on. `open?` holds the start and the
name of the reference being read, the last character first, and `read` what has been expanded so
far, likewise reversed. -/
def expandFrom (length position : Nat) (open? : Option (Nat × List Char)) (read : List Char) :
    List Char → Except ReferenceFault String
  | [] =>
      match open? with
      | none => .ok (String.ofList read.reverse)
      | some (start, _) => .error (.unterminated start length)
  | c :: rest =>
      match open? with
      | none =>
          if c = '&' then expandFrom length (position + 1) (some (position, [])) read rest
          else expandFrom length (position + c.utf8Size) none (c :: read) rest
      | some (start, name) =>
          if c = '&' then .error (.unterminated start length)
          else if c = ';' then
            match resolve start position name.reverse with
            | .ok expanded => expandFrom length (position + 1) none (expanded :: read) rest
            | .error fault => .error fault
          else expandFrom length (position + c.utf8Size) (some (start, c :: name)) read rest

def expand (text : String) : Except ReferenceFault String :=
  expandFrom text.utf8ByteSize 0 none [] text.toList

/-- Why bytes do not give a text: they are not UTF-8, or a reference in them cannot be expanded. -/
inductive ContentFault where
  | encoding (fault : Text.Utf8.Fault)
  | reference (fault : ReferenceFault)
deriving DecidableEq

def ContentFault.message : ContentFault → String
  | .encoding fault => s!"Malformed UTF-8 input: {fault.message}"
  | .reference fault => fault.message

/-- The text of character data or of an attribute value. -/
def content (bytes : Bytes) : Except ContentFault String :=
  match Text.Utf8.decode bytes with
  | .error fault => .error (.encoding fault)
  | .ok text =>
      match expand text with
      | .error fault => .error (.reference fault)
      | .ok expanded => .ok expanded

end XmlSchema.Xml
