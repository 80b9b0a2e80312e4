/-!
# Limits

Bounds on a compilation: on the document and its nesting, and on the chains that resolution follows.
The three checks refuse a measure above its bound.
-/

namespace XmlSchema

/-- The largest size that a machine word tells. -/
def largestSize : Nat := UInt64.size - 1

/-- The bounds of one compilation. -/
structure Limits where
  xmlDepth : Nat
  xmlSize : Nat
  baseDepth : Nat
  simpleTypeHops : Nat
  groupDepth : Nat
deriving DecidableEq

/-- A measure above its bound. -/
inductive LimitFault where
  | depth (found maximum : Nat)
  | groups (found maximum : Nat)
  | size (found maximum : Nat)
deriving DecidableEq

def LimitFault.message : LimitFault → String
  | .depth found maximum => s!"XML depth {found} exceeds maximum {maximum}"
  | .groups found maximum => s!"group nesting {found} exceeds maximum {maximum}"
  | .size found maximum => s!"XML size {found} bytes exceeds maximum {maximum} bytes"

namespace Limits

/-- The limits in effect unless others are given. -/
def standard : Limits := ⟨1000, 100 * 1024 * 1024, 100, 10, 100⟩

/-- Limits for documents that are not trusted. -/
def strict : Limits := ⟨100, 10 * 1024 * 1024, 20, 10, 20⟩

def permissive : Limits := ⟨10000, 1024 * 1024 * 1024, 1000, 100, 1000⟩

/-- How much of a stream is read: one byte more than a document may have, where that can be told. -/
def readSize (limits : Limits) : Nat := min (limits.xmlSize + 1) largestSize

def checkDepth (limits : Limits) (depth : Nat) : Except LimitFault Unit :=
  if depth > limits.xmlDepth then .error (.depth depth limits.xmlDepth) else .ok ()

def checkGroups (limits : Limits) (depth : Nat) : Except LimitFault Unit :=
  if depth > limits.groupDepth then .error (.groups depth limits.groupDepth) else .ok ()

def checkSize (limits : Limits) (size : Nat) : Except LimitFault Unit :=
  if size > limits.xmlSize then .error (.size size limits.xmlSize) else .ok ()

end Limits

end XmlSchema
