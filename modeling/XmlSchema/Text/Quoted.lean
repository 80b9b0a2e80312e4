import XmlSchema.Text.Visible

/-!
# Quoted text in messages

A text between quotation marks in which nothing is hidden: the quotation mark, the backslash and the
usual controls have two-character escapes, and any other character that would not show is written
with its code point in braces.
-/

namespace XmlSchema.Text

/-- A code point in braces, in hexadecimal. -/
def codePointEscape (c : Char) : List Char :=
  ['\\', 'u', '\x7b'] ++ Nat.toDigits 16 c.toNat ++ ['\x7d']

def quoteChar (c : Char) : List Char :=
  if c = '\x00' then ['\\', '0']
  else if c = '\t' then ['\\', 't']
  else if c = '\n' then ['\\', 'n']
  else if c = '\r' then ['\\', 'r']
  else if c = '"' then ['\\', '"']
  else if c = '\\' then ['\\', '\\']
  else if isVisible c then [c]
  else codePointEscape c

def quote (text : String) : String :=
  String.ofList ('"' :: text.toList.flatMap quoteChar ++ ['"'])

end XmlSchema.Text
