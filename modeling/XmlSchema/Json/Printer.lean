import XmlSchema.Json.Basic

/-!
# Writing JSON

A layout says whether the items of arrays and the members of objects stand on lines of their own. In
a text, the quotation mark, the backslash and the control characters are escaped and every other
character stands for itself.
-/

namespace XmlSchema.Json

/-- Where a written value breaks into lines. -/
structure Layout where
  /-- Blanks in front of a line for each level of nesting; `none` writes one line. -/
  indent? : Option Nat
deriving DecidableEq

/-- Everything on one line, without blanks. -/
def Layout.compact : Layout := ⟨none⟩

/-- A line for each item and member, indented by two blanks a level. -/
def Layout.lines : Layout := ⟨some 2⟩

/-- What stands before an item or a closing bracket at a depth. -/
def Layout.lineBreak (layout : Layout) (depth : Nat) : List Char :=
  match layout.indent? with
  | some width => '\n' :: List.replicate (width * depth) ' '
  | none => []

def Layout.colon (layout : Layout) : List Char :=
  match layout.indent? with
  | some _ => [':', ' ']
  | none => [':']

/-- A hexadecimal digit, in lower case. -/
def hexDigit (value : Nat) : Char :=
  if value < 10 then Char.ofNat (value + '0'.toNat) else Char.ofNat (value - 10 + 'a'.toNat)

/-- A character as it stands inside quotation marks. -/
def escapeChar (c : Char) : List Char :=
  if c = '"' then ['\\', '"']
  else if c = '\\' then ['\\', '\\']
  else if c = '\x08' then ['\\', 'b']
  else if c = '\x0c' then ['\\', 'f']
  else if c = '\n' then ['\\', 'n']
  else if c = '\r' then ['\\', 'r']
  else if c = '\t' then ['\\', 't']
  else if c.toNat < 0x20 then
    ['\\', 'u', '0', '0', hexDigit (c.toNat / 16), hexDigit (c.toNat % 16)]
  else [c]

def quoted (text : String) : List Char := '"' :: text.toList.flatMap escapeChar ++ ['"']

def integerText : Int → List Char
  | .ofNat value => Nat.toDigits 10 value
  | .negSucc value => '-' :: Nat.toDigits 10 (value + 1)

mutual

def write (layout : Layout) (depth : Nat) : Json → List Char
  | .null => ['n', 'u', 'l', 'l']
  | .bool true => ['t', 'r', 'u', 'e']
  | .bool false => ['f', 'a', 'l', 's', 'e']
  | .integer value => integerText value
  | .verbatim written => written.toList
  | .string text => quoted text
  | .array [] => ['[', ']']
  | .array (item :: items) =>
      '[' :: layout.lineBreak (depth + 1) ++ write layout (depth + 1) item ++
        writeItems layout depth items
  | .object [] => ['{', '}']
  | .object (member :: members) =>
      '{' :: layout.lineBreak (depth + 1) ++ writeMember layout (depth + 1) member ++
        writeMembers layout depth members

/-- The items after the first, with the closing bracket. -/
def writeItems (layout : Layout) (depth : Nat) : List Json → List Char
  | [] => layout.lineBreak depth ++ [']']
  | item :: items =>
      ',' :: layout.lineBreak (depth + 1) ++ write layout (depth + 1) item ++
        writeItems layout depth items

/-- A member: its name and its value. -/
def writeMember (layout : Layout) (depth : Nat) : String × Json → List Char
  | (name, value) => quoted name ++ layout.colon ++ write layout depth value

/-- The members after the first, with the closing brace. -/
def writeMembers (layout : Layout) (depth : Nat) : List (String × Json) → List Char
  | [] => layout.lineBreak depth ++ ['}']
  | member :: members =>
      ',' :: layout.lineBreak (depth + 1) ++ writeMember layout (depth + 1) member ++
        writeMembers layout depth members

end

def render (layout : Layout) (value : Json) : String := String.ofList (write layout 0 value)

end XmlSchema.Json
