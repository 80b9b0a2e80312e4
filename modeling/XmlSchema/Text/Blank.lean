/-!
# White space

`isBlank` is the Unicode property White_Space. `trim` drops blanks at both ends of a text and
`words` splits a text at its blanks.
-/

namespace XmlSchema.Text

def isBlank (c : Char) : Bool :=
  let code := c.toNat
  (0x9 ≤ code && code ≤ 0xD) || code == 0x20 || code == 0x85 || code == 0xA0 || code == 0x1680 ||
    (0x2000 ≤ code && code ≤ 0x200A) || code == 0x2028 || code == 0x2029 || code == 0x202F ||
    code == 0x205F || code == 0x3000

/-- The characters left when blanks are dropped at both ends. -/
def trimChars (characters : List Char) : List Char :=
  ((characters.dropWhile isBlank).reverse.dropWhile isBlank).reverse

/-- A text without the blanks at its ends. -/
def trim (text : String) : String := String.ofList (trimChars text.toList)

/-- The maximal runs of characters that are not blank, in order. -/
def words (text : String) : List String :=
  ((text.toList.splitOnP isBlank).filter (!·.isEmpty)).map String.ofList

/-- Equality of texts that takes an ASCII letter for its other case. -/
def equalIgnoringCase (left right : String) : Bool :=
  left.toList.map Char.toLower == right.toList.map Char.toLower

example : ['\u0085', '\u00a0', '\u1680', '\u2028', '\u3000', '\x0b', '\x0c'].all isBlank := by
  decide

example : ['\u200b', '\u180e', '\ufeff', 'x'].any isBlank = false := by decide

end XmlSchema.Text
