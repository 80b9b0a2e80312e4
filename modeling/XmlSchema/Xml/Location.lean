import XmlSchema.Text.Utf8

/-!
# Places in a document

A place is a line and a column, both counted from one. Lines end at line feeds and columns count
bytes.
-/

namespace XmlSchema.Xml

/-- A place in a document. -/
structure Location where
  line : Nat
  column : Nat
deriving DecidableEq

/-- The line and the column, as messages give them. -/
def Location.render (location : Location) : String := s!"{location.line}:{location.column}"

/-- The place after the given bytes. -/
def Location.after (consumed : Bytes) : Location :=
  ⟨consumed.count 0x0A + 1, (consumed.reverse.takeWhile (· != 0x0A)).length + 1⟩

/-- The place of a byte offset, or of the end of the document when it has fewer bytes. -/
def Location.ofOffset (document : Bytes) (offset : Nat) : Location :=
  .after (document.take offset)

end XmlSchema.Xml
