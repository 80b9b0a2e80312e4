/-!
# UTF-8

Bytes are read by a machine that takes one byte at a time. Between characters it is at `start`;
inside a sequence it remembers the bits read so far, how many bytes are owed, and the range the next
byte has to lie in (which excludes overlong forms, surrogates and values past U+10FFFF).

`decode` refuses the first faulty sequence and says where it starts and how long it is;
`decodeLossy` puts U+FFFD in the place of each faulty sequence; `encode` is the inverse.
-/

namespace XmlSchema

/-- A document or a piece of one, before its text is decoded. -/
abbrev Bytes := List UInt8

namespace Text.Utf8

/-- Where the reading machine stands. -/
inductive State where
  | start
  /-- Inside a sequence: `owed + 1` bytes are missing, the next one between `low` and `high`. -/
  | within (owed : Nat) (low high : UInt8) (value : Nat)
deriving DecidableEq

/-- What one byte does: it completes a character, it continues a sequence, or it is at fault. -/
inductive Step where
  | character (c : Char)
  | continued (state : State)
  | fault
deriving DecidableEq

def lead (byte : UInt8) : Step :=
  let value := byte.toNat
  if value < 0x80 then .character (Char.ofNat value)
  else if 0xC2 ≤ value ∧ value ≤ 0xDF then .continued (.within 0 0x80 0xBF (value - 0xC0))
  else if value = 0xE0 then .continued (.within 1 0xA0 0xBF 0)
  else if value = 0xED then .continued (.within 1 0x80 0x9F 0xD)
  else if 0xE1 ≤ value ∧ value ≤ 0xEF then .continued (.within 1 0x80 0xBF (value - 0xE0))
  else if value = 0xF0 then .continued (.within 2 0x90 0xBF 0)
  else if 0xF1 ≤ value ∧ value ≤ 0xF3 then .continued (.within 2 0x80 0xBF (value - 0xF0))
  else if value = 0xF4 then .continued (.within 2 0x80 0x8F 4)
  else .fault

def step (byte : UInt8) : State → Step
  | .start => lead byte
  | .within owed low high value =>
      if low ≤ byte ∧ byte ≤ high then
        let extended := value * 64 + (byte.toNat - 0x80)
        match owed with
        | 0 => .character (Char.ofNat extended)
        | owed + 1 => .continued (.within owed 0x80 0xBF extended)
      else .fault

/-- A sequence that is not UTF-8: where it starts, and its length unless the text ends inside it. -/
structure Fault where
  index : Nat
  length? : Option Nat
deriving DecidableEq

def Fault.message (fault : Fault) : String :=
  match fault.length? with
  | some length => s!"invalid utf-8 sequence of {length} bytes from index {fault.index}"
  | none => s!"incomplete utf-8 byte sequence from index {fault.index}"

/-- Reads on from `state`. The current sequence starts at `start`, the next byte is number `index`,
and `read` holds the characters so far, the last one first. A faulty byte at the start of a sequence
is a sequence of one byte; a later one ends the faulty sequence before itself. -/
def decodeFrom (state : State) (start index : Nat) (read : List Char) :
    Bytes → Except Fault String
  | [] =>
      match state with
      | .start => .ok (String.ofList read.reverse)
      | .within .. => .error ⟨start, none⟩
  | byte :: rest =>
      match step byte state with
      | .character c => decodeFrom .start (index + 1) (index + 1) (c :: read) rest
      | .continued next => decodeFrom next start (index + 1) read rest
      | .fault => .error ⟨start, some (max 1 (index - start))⟩

def decode (bytes : Bytes) : Except Fault String := decodeFrom .start 0 0 [] bytes

def replacement : Char := '\ufffd'

/-- Reads on from `state`, with `read` as for `decodeFrom`. -/
def decodeLossyFrom (state : State) (read : List Char) : Bytes → String
  | [] =>
      match state with
      | .start => String.ofList read.reverse
      | .within .. => String.ofList (replacement :: read).reverse
  | byte :: rest =>
      match step byte state with
      | .character c => decodeLossyFrom .start (c :: read) rest
      | .continued next => decodeLossyFrom next read rest
      | .fault =>
          if state = .start then decodeLossyFrom .start (replacement :: read) rest
          else
            match lead byte with
            | .character c => decodeLossyFrom .start (c :: replacement :: read) rest
            | .continued next => decodeLossyFrom next (replacement :: read) rest
            | .fault => decodeLossyFrom .start (replacement :: replacement :: read) rest

/-- The text of any bytes, with U+FFFD in place of each faulty sequence. -/
def decodeLossy (bytes : Bytes) : String := decodeLossyFrom .start [] bytes

def encode (text : String) : Bytes := text.toUTF8.data.toList

end Text.Utf8

end XmlSchema
