import XmlSchema.Text.Numeral

/-!
# Decimal numbers of facet bounds

A decimal is a 96-bit magnitude, a sign and a scale of at most 28 places. The scale is part of the
number: `1.50` and `1.5` are equal in value and different as decimals, and `render` writes exactly
the places of the scale. A zero that is written out has no sign, and neither has a number whose
digits round to zero; but where an exponent moves all digits of a negative number behind the last
place, the zero that is left keeps the sign.

Reading accumulates digits while the magnitude fits and the scale stays below 28. Before the point a
digit that no longer fits is a fault; after it the next character rounds, half upward, on that
character alone, and the rest only has to be digits and separators. A number may carry an exponent.
-/

namespace XmlSchema

/-- The least magnitude that does not fit 96 bits. -/
def Decimal.magnitudeBound : Nat := Nat.pow 2 96

/-- The number `± magnitude / 10 ^ scale`. -/
structure Decimal where
  negative : Bool
  magnitude : Nat
  scale : Nat
  magnitude_lt : magnitude < Decimal.magnitudeBound
  scale_le : scale ≤ 28
deriving DecidableEq

namespace Decimal

/-- The greatest number of places. -/
def maxScale : Nat := 28

/-- The decimal of a sign, a magnitude and a scale that fit. -/
def ofSigned? (negative : Bool) (magnitude scale : Nat) : Option Decimal :=
  if bounds : magnitude < magnitudeBound ∧ scale ≤ 28 then
    some ⟨negative, magnitude, scale, bounds.1, bounds.2⟩
  else none

/-- The decimal of a sign, a magnitude and a scale that fit; the sign of a zero is dropped. -/
def ofParts? (negative : Bool) (magnitude scale : Nat) : Option Decimal :=
  ofSigned? (negative && magnitude != 0) magnitude scale

/-! ## Reading -/

/-- What has been read of a number: its digits as a magnitude, and the places after the point. -/
structure Reading where
  magnitude : Nat
  scale : Nat
deriving DecidableEq

/-- From this magnitude on, separators between the last place and the rounding character are passed
over. -/
def wideMagnitude : Nat := UInt64.size / 10 - 255

/-- The magnitude is rounded upward by one; if it no longer fits, its last place is given up. -/
def roundUp? (reading : Reading) : Option Reading :=
  let raised := reading.magnitude + 1
  if raised < magnitudeBound then some { reading with magnitude := raised }
  else if reading.scale = 0 then none
  else some ⟨(raised + 4) / 10, reading.scale - 1⟩

/-- The end of a number after all places are taken: the first character rounds and the others are
only checked. -/
def finish? (reading : Reading) : List Char → Option Reading
  | [] => some reading
  | c :: rest =>
      let rounding : Option Nat := if c = '_' then some 0 else Text.digit? c
      match rounding with
      | none => none
      | some digit =>
          if rest.all fun c => c.isDigit || c = '_' then
            if digit ≥ 5 then roundUp? reading else some reading
          else none

/-- Reads digits, separators and one point. `fractional` says that the point has been read and
`anyDigit` that a digit has. -/
def readDigits (fractional anyDigit : Bool) (reading : Reading) : List Char → Option Reading
  | [] => if anyDigit then some reading else none
  | c :: rest =>
      match Text.digit? c with
      | some digit =>
          let magnitude := reading.magnitude * 10 + digit
          if magnitude < magnitudeBound then
            let extended : Reading := ⟨magnitude, if fractional then reading.scale + 1 else 0⟩
            if fractional ∧ extended.scale ≥ maxScale then
              if reading.magnitude ≥ wideMagnitude then finish? extended (rest.dropWhile (· = '_'))
              else finish? extended rest
            else readDigits fractional true extended rest
          else if fractional then finish? reading (c :: rest)
          else none
      | none =>
          if c = '.' ∧ fractional = false then readDigits true anyDigit reading rest
          else if c = '_' ∧ anyDigit then readDigits fractional true reading rest
          else none

/-- A number in positional notation, with an optional sign. -/
def positional? (characters : List Char) : Option Decimal :=
  let (negative, digits) :=
    match characters with
    | '-' :: rest => (true, rest)
    | '+' :: rest => (false, rest)
    | _ => (false, characters)
  match readDigits false false ⟨0, 0⟩ digits with
  | some reading => ofParts? negative reading.magnitude reading.scale
  | none => none

/-- A quotient rounded to the nearest whole number, a half upward. -/
def roundedQuotient (dividend divisor : Nat) : Nat := (dividend + divisor / 2) / divisor

/-- The number divided by `10 ^ places`. What does not fit the scale is rounded, a half away from
zero; the sign stays, also where zero is left. -/
def shiftDown? (number : Decimal) (places : Nat) : Option Decimal :=
  if places > maxScale then none
  else if number.scale + places ≤ maxScale then
    ofSigned? number.negative number.magnitude (number.scale + places)
  else
    let lost := number.scale + places - maxScale
    ofSigned? number.negative (roundedQuotient number.magnitude (Nat.pow 10 lost)) maxScale

/-- The number multiplied by `10 ^ places`: places are taken from the scale, and when it has too few
the result is a whole number. -/
def shiftUp? (number : Decimal) (places : Nat) : Option Decimal :=
  if places ≤ number.scale then
    ofSigned? number.negative number.magnitude (number.scale - places)
  else if places > maxScale then none
  else ofSigned? number.negative (number.magnitude * Nat.pow 10 (places - number.scale)) 0

/-- A number in positional notation with an exponent behind its first `e` or `E`. -/
def scientific? (characters : List Char) : Option Decimal :=
  let isMark (c : Char) : Bool := c = 'e' || c = 'E'
  match positional? (characters.takeWhile (!isMark ·)), characters.dropWhile (!isMark ·) with
  | some number, _ :: '-' :: exponent =>
      (Text.word32? (String.ofList exponent)).bind fun places => number.shiftDown? places.toNat
  | some number, _ :: exponent =>
      (Text.word32? (String.ofList exponent)).bind fun places => number.shiftUp? places.toNat
  | _, _ => none

/-- The decimal that a text denotes, with or without an exponent. -/
def parse (text : String) : Option Decimal :=
  positional? text.toList <|> scientific? text.toList

/-! ## Writing -/

/-- The digits of the magnitude, with zeros in front so that one stands before the point. -/
def digits (number : Decimal) : List Char :=
  let written := Nat.toDigits 10 number.magnitude
  List.replicate (number.scale + 1 - written.length) '0' ++ written

/-- The text of a decimal: a sign if negative, the digits, and exactly the places of the scale. -/
def render (number : Decimal) : String :=
  let digits := number.digits
  let whole := digits.take (digits.length - number.scale)
  let places := digits.drop (digits.length - number.scale)
  let sign := if number.negative then ['-'] else []
  String.ofList (sign ++ whole ++ if number.scale = 0 then [] else '.' :: places)

/-! Reading and writing at the edges of the format. -/

example : ["1.50", "-0", "5.", ".5", "00.100", "1_0", "0e5", "1.20e1", "1e-3"].map
    (fun text => (parse text).map render) =
    [some "1.50", some "0", some "5", some "0.5", some "0.100", some "10", some "0", some "12.0",
      some "0.001"] := by decide +kernel

example : ["-0.4e-28", "-0.5e-28", "-0.0e-28", "-0.00000000000000000000000000004"].map
    (fun text => (parse text).map render) =
    [some "-0.0000000000000000000000000000", some "-0.0000000000000000000000000001",
      some "0.0000000000000000000000000000", some "0.0000000000000000000000000000"] := by
  decide +kernel

example : ["", ".", "-", "+", " ", "_1", "1/2", "+-1", "1e--1", "1e29", "1e-29",
    "79228162514264337593543950336"].all (fun text => (parse text).isNone) = true := by
  decide +kernel

end Decimal

end XmlSchema
