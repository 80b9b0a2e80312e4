import XmlSchema.Table
import XmlSchema.Xml.Reference

/-!
# The attributes of a tag

The text of a tag, after the name, is a sequence of `key = "value"` with blanks around each part and
any of the two quotation marks. A key reaches to the next blank or equals sign; its first byte
belongs to it in any case. Positions in faults count bytes from the start of the tag's text, so that
the position of what remains is the length of the text less what remains of it.
-/

namespace XmlSchema.Xml

/-- The attributes of a tag, in document order. -/
abbrev Attributes := Table String

/-- A blank of markup: space, line feed, carriage return or tab. -/
def isMarkupBlank (byte : UInt8) : Bool :=
  byte == 0x20 || byte == 0x0A || byte == 0x0D || byte == 0x09

/-- Why the attributes of a tag cannot be read. -/
inductive AttributeFault where
  | missingEquals (position : Nat)
  | missingValue (position : Nat)
  | unquotedValue (position : Nat)
  | missingQuote (position : Nat) (quote : UInt8)
  | duplicated (position previous : Nat)
  | key (fault : Text.Utf8.Fault)
  | value (fault : ContentFault)
deriving DecidableEq

def AttributeFault.message : AttributeFault → String
  | .missingEquals position =>
      s!"failed to parse attribute: position {position}: " ++
        "attribute key must be directly followed by `=` or space"
  | .missingValue position =>
      s!"failed to parse attribute: position {position}: `=` must be followed by an attribute value"
  | .unquotedValue position =>
      s!"failed to parse attribute: position {position}: " ++
        "attribute value must be enclosed in `\"` or `'`"
  | .missingQuote position quote =>
      s!"failed to parse attribute: position {position}: " ++
        s!"missing closing quote `{Char.ofNat quote.toNat}` in attribute value"
  | .duplicated position previous =>
      s!"failed to parse attribute: position {position}: " ++
        s!"duplicated attribute, previous declaration at position {previous}"
  | .key fault => s!"invalid attribute name: {fault.message}"
  | .value fault => s!"failed to unescape attribute value: {fault.message}"

private theorem length_dropWhile_le (drops : UInt8 → Bool) (bytes : Bytes) :
    (bytes.dropWhile drops).length ≤ bytes.length :=
  (List.dropWhile_suffix drops).length_le

set_option linter.unusedVariables false in
/-- Reads the attributes that `input` still holds, where the text of the tag has `length` bytes.
`seen` lists the keys so far with their positions and `read` the attributes so far. -/
def attributesFrom (length : Nat) (seen : List (Bytes × Nat)) (read : Attributes) (input : Bytes) :
    Except AttributeFault Attributes :=
  match atKey : input.dropWhile isMarkupBlank with
  | [] => .ok read
  | first :: tail =>
      let position := length - (tail.length + 1)
      let endsKey (byte : UInt8) : Bool := byte == 0x3D || isMarkupBlank byte
      let key := first :: tail.takeWhile (!endsKey ·)
      match atEquals : (tail.dropWhile (!endsKey ·)).dropWhile isMarkupBlank with
      | [] => .error (.missingEquals length)
      | equals :: afterEquals =>
          if equals != 0x3D then .error (.missingEquals (length - (afterEquals.length + 1)))
          else
            match seen.lookup key with
            | some previous => .error (.duplicated position previous)
            | none =>
                match atQuote : afterEquals.dropWhile isMarkupBlank with
                | [] => .error (.missingValue length)
                | quote :: body =>
                    if quote != 0x22 && quote != 0x27 then
                      .error (.unquotedValue (length - (body.length + 1)))
                    else
                      match atEnd : body.dropWhile (· != quote) with
                      | [] => .error (.missingQuote length quote)
                      | _ :: rest =>
                          match Text.Utf8.decode key with
                          | .error fault => .error (.key fault)
                          | .ok name =>
                              match content (body.takeWhile (· != quote)) with
                              | .error fault => .error (.value fault)
                              | .ok value =>
                                  attributesFrom length ((key, position) :: seen)
                                    (read.insert name value) rest
termination_by input.length
decreasing_by
  have keyBound := length_dropWhile_le isMarkupBlank input
  have equalsBound := length_dropWhile_le isMarkupBlank (tail.dropWhile (!endsKey ·))
  have tailBound := length_dropWhile_le (!endsKey ·) tail
  have quoteBound := length_dropWhile_le isMarkupBlank afterEquals
  have endBound := length_dropWhile_le (· != quote) body
  rw [atKey] at keyBound
  rw [atEquals] at equalsBound
  rw [atQuote] at quoteBound
  rw [atEnd] at endBound
  simp only [List.length_cons] at keyBound equalsBound quoteBound endBound
  omega

/-- The attributes in the text of a tag, whose name takes the first `nameLength` bytes. -/
def attributes (tag : Bytes) (nameLength : Nat) : Except AttributeFault Attributes :=
  attributesFrom tag.length [] .empty (tag.drop nameLength)

end XmlSchema.Xml
