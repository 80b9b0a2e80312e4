import XmlSchema.Xml.Attributes
import XmlSchema.Xml.Location

/-!
# The events of a document

A document is read as tags, closings and text. Comments, processing instructions, the declaration
and the document type are passed over, and a CDATA section is text. Reading stops at the first fault
or at the end of the document.

Reading alternates between text and markup. Blanks in front of text and behind it are dropped and
text of blanks alone is no event. After text, or after markup directly, the byte `<` leads into
markup, and what follows it decides which: `!` a comment, a CDATA section or a document type, `/` a
closing, `?` a processing instruction, and anything else a tag. A tag reaches to the next `>`
outside quotation marks, or to the end of the document. A closing has to carry the name of the
innermost open tag.

The place to which messages about something refer is told by the bytes behind it, so that reading
need not count. A byte order mark is passed over, and `place` does not count it.
-/

namespace XmlSchema.Xml

/-- One step through a document. -/
inductive Event where
  | opening (tag : String) (attributes : Attributes)
  | empty (tag : String) (attributes : Attributes)
  | closing
  | text (content : String)
deriving DecidableEq

/-- Markup that has to be closed by a mark of its own. -/
inductive Section where
  | comment
  | cdata
  | doctype
deriving DecidableEq

def Section.name : Section → String
  | .comment => "Comment"
  | .cdata => "CData"
  | .doctype => "DOCTYPE"

/-- Why the markup of a document is at fault. -/
inductive SyntaxFault where
  | bangAtEnd
  | unknownBang (byte : UInt8)
  | openSection (kind : Section)
  | emptyDoctype
  | openInstruction
  | mismatchedClosing (expected found : String)
deriving DecidableEq

def SyntaxFault.message : SyntaxFault → String
  | .bangAtEnd => "Unexpected EOF during reading Bang"
  | .unknownBang byte =>
      "Only Comment (`--`), CDATA (`[CDATA[`) and DOCTYPE (`DOCTYPE`) nodes can start with a '!'" ++
        s!", but symbol `{Char.ofNat byte.toNat}` found"
  | .openSection kind => s!"Unexpected EOF during reading {kind.name}"
  | .emptyDoctype => "DOCTYPE declaration must not be empty"
  | .openInstruction => "Unexpected EOF during reading XmlDecl"
  | .mismatchedClosing expected found => s!"Expecting </{expected}> found </{found}>"

/-- Why reading stops before the end of a document. The attributes of a tag are at fault inside that
tag. -/
inductive Fault where
  | markup (fault : SyntaxFault)
  | text (fault : ContentFault)
  | tagName (fault : Text.Utf8.Fault)
  | attributes (tag : String) (fault : AttributeFault)
deriving DecidableEq

def Fault.message : Fault → String
  | .markup fault => s!"XML syntax error: {fault.message}"
  | .text fault => s!"failed to unescape text: {fault.message}"
  | .tagName fault => s!"invalid tag name: {fault.message}"
  | .attributes _ fault => fault.message

/-- Something in a document, with the bytes behind the place to which messages about it refer. -/
structure Located (α : Type) where
  value : α
  behind : Bytes

/-- What reading a document gives: its events and the fault that ended reading, if there was one. -/
structure Reading where
  events : List (Located Event)
  fault? : Option (Located Fault)

def Reading.prepend (event : Event) (behind : Bytes) (reading : Reading) : Reading :=
  { reading with events := ⟨event, behind⟩ :: reading.events }

/-- The reading that a fault ends at once. -/
def Reading.stopped (fault : Fault) (behind : Bytes) : Reading := ⟨[], some ⟨fault, behind⟩⟩

/-! ## Sections -/

/-- Whether a section may end at a `>` that follows `taken`, the last byte first. -/
def Section.endsAfter (kind : Section) (taken : Bytes) : Bool :=
  match kind with
  | .comment => taken.length ≥ 4 && taken.take 2 == [0x2D, 0x2D]
  | .cdata => taken.take 2 == [0x5D, 0x5D]
  | .doctype => taken.count 0x3C == taken.count 0x3E

/-- The bytes of a section up to its closing `>`, and the bytes after that. -/
def Section.split? (kind : Section) (taken : Bytes) : Bytes → Option (Bytes × Bytes)
  | [] => none
  | byte :: rest =>
      if byte = 0x3E ∧ kind.endsAfter taken then some (taken.reverse, rest)
      else kind.split? (byte :: taken) rest

/-- An ASCII letter in lower case; other bytes as they are. -/
def lowerByte (byte : UInt8) : UInt8 := if 0x41 ≤ byte ∧ byte ≤ 0x5A then byte + 0x20 else byte

/-- Whether bytes begin with an ASCII text, whatever the case of its letters. -/
def beginsWith (bytes : Bytes) (text : String) : Bool :=
  (Text.Utf8.encode text).map lowerByte |>.isPrefixOf (bytes.map lowerByte)

/-- Whether the bytes of a section, after `!`, begin as its kind requires. -/
def Section.opens (kind : Section) (bytes : Bytes) : Bool :=
  match kind with
  | .comment => beginsWith bytes "--"
  | .cdata => beginsWith bytes "[CDATA["
  | .doctype => beginsWith bytes "DOCTYPE"

/-- The event of a section, if it is one. -/
def Section.event? (kind : Section) (bytes : Bytes) : Except SyntaxFault (Option Event) :=
  if kind.opens bytes then
    match kind with
    | .comment => .ok none
    | .cdata => .ok (some (.text (Text.Utf8.decodeLossy ((bytes.drop 7).take (bytes.length - 9)))))
    | .doctype => if (bytes.drop 7).all isMarkupBlank then .error .emptyDoctype else .ok none
  else .error (.openSection kind)

/-- The kind of section that a byte after `!` announces. -/
def Section.ofByte? (byte : UInt8) : Option Section :=
  if byte = 0x5B then some .cdata
  else if byte = 0x2D then some .comment
  else if byte = 0x44 ∨ byte = 0x64 then some .doctype
  else none

/-! ## Tags and closings -/

/-- The bytes of a tag, up to a `>` outside quotation marks, and the bytes after that; without such
a `>` the tag takes all bytes and has none after it. `quote?` is the open quotation mark. -/
def splitTag (quote? : Option UInt8) (taken : Bytes) : Bytes → Bytes × Option Bytes
  | [] => (taken.reverse, none)
  | byte :: rest =>
      match quote? with
      | some quote => splitTag (if byte = quote then none else some quote) (byte :: taken) rest
      | none =>
          if byte = 0x3E then (taken.reverse, some rest)
          else if byte = 0x22 ∨ byte = 0x27 then splitTag (some byte) (byte :: taken) rest
          else splitTag none (byte :: taken) rest

/-- The bytes up to the next `>`, and the bytes after it. -/
def splitClosing (bytes : Bytes) : Bytes × Bytes :=
  (bytes.takeWhile (· != 0x3E), (bytes.dropWhile (· != 0x3E)).drop 1)

/-- The bytes behind the place of a fault in markup that reaches to the next `>`: the place is where
the markup begins, or one byte later if there is such a `>`. -/
def behindClosing (input : Bytes) : Bytes :=
  if input.contains 0x3E then input.drop 1 else input

/-- Bytes without the blanks at their end. -/
def trimEnd (bytes : Bytes) : Bytes := (bytes.reverse.dropWhile isMarkupBlank).reverse

/-- The text of a name, empty when it is not UTF-8. -/
def nameText (bytes : Bytes) : String :=
  match Text.Utf8.decode bytes with
  | .ok text => text
  | .error _ => ""

/-- The name in a closing, without the blanks behind it unless it is all blank. -/
def closingName (bytes : Bytes) : Bytes :=
  let name := trimEnd bytes
  if name.isEmpty then bytes else name

/-- The names of the open tags after a closing, the innermost first. -/
def closeTag (openTags : List Bytes) (bytes : Bytes) : Except SyntaxFault (List Bytes) :=
  match openTags with
  | [] => .error (.mismatchedClosing "" (nameText bytes))
  | expected :: outer =>
      let name := closingName bytes
      if name = expected then .ok outer
      else .error (.mismatchedClosing (nameText expected) (nameText name))

/-- A tag: its name, its text, and whether it closes itself. -/
structure Tag where
  name : Bytes
  text : Bytes
  closed : Bool

def Tag.ofBytes (bytes : Bytes) : Tag :=
  let closed := bytes.getLast? == some 0x2F
  let text := if closed then bytes.dropLast else bytes
  ⟨text.takeWhile (!isMarkupBlank ·), text, closed⟩

def Tag.event (tag : Tag) : Except Fault Event :=
  match Text.Utf8.decode tag.name with
  | .error fault => .error (.tagName fault)
  | .ok name =>
      match attributes tag.text tag.name.length with
      | .error fault => .error (.attributes name fault)
      | .ok read => .ok (if tag.closed then .empty name read else .opening name read)

/-! ## Markup -/

/-- What one piece of markup gives. -/
inductive Markup where
  | finished
  /-- Reading goes on at `rest`, with the event if there is one, whose place is before `behind`. -/
  | read (event? : Option Event) (openTags : List Bytes) (behind rest : Bytes)
  /-- A fault, whose place is before `behind`. -/
  | stopped (fault : Fault) (behind : Bytes)

/-- Reads the markup after a `<`. The place of an event is where reading goes on, but that of a tag
inside which the document ends is where the tag begins. -/
def Markup.ofBytes (openTags : List Bytes) (input : Bytes) : Markup :=
  match input with
  | [] => .finished
  | first :: tail =>
      if first = 0x21 then
        match tail with
        | [] => .stopped (.markup .bangAtEnd) input
        | second :: _ =>
            match Section.ofByte? second with
            | none => .stopped (.markup (.unknownBang second)) input
            | some kind =>
                match kind.split? [] tail with
                | none => .stopped (.markup (.openSection kind)) input
                | some (bytes, rest) =>
                    match kind.event? bytes with
                    | .error fault => .stopped (.markup fault) rest
                    | .ok event? => .read event? openTags rest rest
      else if first = 0x2F then
        let (bytes, rest) := splitClosing input
        match closeTag openTags (bytes.drop 1) with
        | .ok outer => .read (some .closing) outer rest rest
        | .error fault => .stopped (.markup fault) (behindClosing input)
      else if first = 0x3F then
        let (bytes, rest) := splitClosing input
        if bytes.length > 2 ∧ bytes.getLast? = some 0x3F then .read none openTags rest rest
        else .stopped (.markup .openInstruction) (behindClosing input)
      else
        let (bytes, rest?) := splitTag none [] input
        let behind := rest?.getD input
        let tag := Tag.ofBytes bytes
        match tag.event with
        | .error fault => .stopped fault behind
        | .ok event =>
            let opened := if tag.closed then openTags else tag.name :: openTags
            .read (some event) opened behind (rest?.getD [])

theorem Section.length_split? {kind : Section} {taken input bytes rest : Bytes}
    (split : kind.split? taken input = some (bytes, rest)) : rest.length < input.length := by
  induction input generalizing taken with
  | nil => simp [Section.split?] at split
  | cons byte tail inductionHypothesis =>
      rw [Section.split?] at split
      by_cases ends : byte = 0x3E ∧ kind.endsAfter taken
      · simp only [ends, and_self, if_true, Option.some.injEq, Prod.mk.injEq] at split
        simp [← split.2]
      · rw [if_neg ends] at split
        have shorter := inductionHypothesis split
        simp only [List.length_cons]
        omega

theorem length_splitTag (quote? : Option UInt8) (taken input : Bytes) :
    ((splitTag quote? taken input).2.getD []).length ≤ input.length := by
  induction input generalizing quote? taken with
  | nil => simp [splitTag]
  | cons byte tail inductionHypothesis =>
      rw [splitTag.eq_def]
      simp only [List.length_cons]
      split
      · exact Nat.le_succ_of_le (inductionHypothesis _ _)
      · split
        · exact Nat.le_succ _
        · split
          · exact Nat.le_succ_of_le (inductionHypothesis _ _)
          · exact Nat.le_succ_of_le (inductionHypothesis _ _)

theorem length_splitClosing (input : Bytes) : (splitClosing input).2.length ≤ input.length := by
  have bound := (List.dropWhile_suffix (l := input) (· != (0x3E : UInt8))).length_le
  simp only [splitClosing, List.length_drop]
  omega

/-- Markup never gives back more than it was given. -/
theorem Markup.length_ofBytes {openTags outer : List Bytes} {input rest : Bytes}
    {behind : Bytes} {event? : Option Event}
    (read : Markup.ofBytes openTags input = .read event? outer behind rest) :
    rest.length ≤ input.length := by
  unfold Markup.ofBytes at read
  split at read
  · cases read
  · rename_i first tail
    split at read
    · split at read
      · cases read
      · split at read
        · cases read
        · split at read
          · cases read
          · rename_i split
            split at read
            · cases read
            · cases read
              have shorter := Section.length_split? split
              simp only [List.length_cons] at shorter ⊢
              omega
    · split at read
      · have bound := length_splitClosing (first :: tail)
        simp only at read
        split at read
        · cases read
          exact bound
        · cases read
      · split at read
        · have bound := length_splitClosing (first :: tail)
          simp only at read
          split at read
          · cases read
            exact bound
          · cases read
        · have bound := length_splitTag none [] (first :: tail)
          simp only at read
          split at read
          · cases read
          · cases read
            exact bound

/-! ## Documents -/

set_option linter.unusedVariables false in
/-- The events of what remains of a document, with the names of the open tags, the innermost first.
The place of text is before the last byte that was read to find its end. -/
def readFrom (openTags : List Bytes) (input : Bytes) : Reading :=
  let start := input.dropWhile isMarkupBlank
  let text := trimEnd (start.takeWhile (· != 0x3C))
  match atMarkup : start.dropWhile (· != 0x3C) with
  | [] =>
      let behind := start.drop (start.length - 1)
      match content text with
      | .error fault => .stopped (.text fault) behind
      | .ok content =>
          if text.isEmpty then ⟨[], none⟩ else .prepend (.text content) behind ⟨[], none⟩
  | bracket :: markup =>
      let behind := bracket :: markup
      match content text with
      | .error fault => .stopped (.text fault) behind
      | .ok content =>
          let following : Reading :=
            match read : Markup.ofBytes openTags markup with
            | .finished => ⟨[], none⟩
            | .stopped fault behind => .stopped fault behind
            | .read event? outer behind rest =>
                let following := readFrom outer rest
                match event? with
                | some event => following.prepend event behind
                | none => following
          if text.isEmpty then following else following.prepend (.text content) behind
termination_by input.length
decreasing_by
  have startBound := (List.dropWhile_suffix (l := input) isMarkupBlank).length_le
  have markupBound :=
    (List.dropWhile_suffix (l := input.dropWhile isMarkupBlank) (· != (0x3C : UInt8))).length_le
  have restBound := Markup.length_ofBytes read
  rw [atMarkup] at markupBound
  simp only [List.length_cons] at markupBound
  omega

/-- The bytes of a document after a byte order mark. -/
def afterByteOrderMark : Bytes → Bytes
  | 0xEF :: 0xBB :: 0xBF :: rest => rest
  | document => document

def read (document : Bytes) : Reading := readFrom [] (afterByteOrderMark document)

/-- The place in a document that has `behind` behind it. -/
def place (document behind : Bytes) : Location :=
  .ofOffset document ((afterByteOrderMark document).length - behind.length)

end XmlSchema.Xml
