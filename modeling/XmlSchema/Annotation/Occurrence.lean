import XmlSchema.Element
import XmlSchema.Error
import XmlSchema.Text.Numeral

/-!
# Occurrence bounds

How often a declaration occurs: between a minimum and a maximum, each of which is one unless the tag
says otherwise or else the choice around it does. The two are looked for independently.
-/

namespace XmlSchema

/-- How often a declaration occurs. -/
structure Occurrence where
  minimum : UInt32
  maximum : UInt32
deriving DecidableEq

namespace Occurrence

def readMinimum (written : String) : Except SemanticCause UInt32 :=
  match Text.word32? (Text.trim written) with
  | some value => .ok value
  | none => .error (.minOccurs written)

/-- Reads a maximum, in digits or as the word for no bound. A message about it quotes the text
without the space around it. -/
def readMaximum (written : String) : Except SemanticCause UInt32 :=
  let word := Text.trim written
  if word = "unbounded" then .ok unboundedOccurs
  else
    match Text.word32? word with
    | some value => .ok value
    | none => .error (.maxOccurs word)

/-- The bound that is written, or one if none is. -/
def boundOrOne (read : String → Except SemanticCause UInt32) :
    Option String → Except SemanticCause UInt32
  | none => .ok 1
  | some written => read written

/-- The occurrence that two bounds give as they are written. The minimum is read first. -/
def ofBounds (minimum? maximum? : Option String) : Except SemanticCause Occurrence :=
  match boundOrOne readMinimum minimum? with
  | .error cause => .error cause
  | .ok minimum =>
      match boundOrOne readMaximum maximum? with
      | .error cause => .error cause
      | .ok maximum =>
          if minimum > maximum then .error (.crossedBounds minimum maximum)
          else .ok ⟨minimum, maximum⟩

end Occurrence

namespace Element

/-- The minimum as written: that of the tag, or else that of the choice around it. -/
def writtenMinimum? (element : Element) : Option String :=
  (element.tagAttributes.find? "minOccurs").or (element.choice?.bind ChoiceBounds.minOccurs?)

/-- The maximum as written: that of the tag, or else that of the choice around it. -/
def writtenMaximum? (element : Element) : Option String :=
  (element.tagAttributes.find? "maxOccurs").or (element.choice?.bind ChoiceBounds.maxOccurs?)

/-- How often a declaration occurs. -/
def occurrence (element : Element) : Except SemanticCause Occurrence :=
  Occurrence.ofBounds element.writtenMinimum? element.writtenMaximum?

end Element

end XmlSchema
