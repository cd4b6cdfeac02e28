import QueryLayer.Json.Token
import QueryLayer.Decimal.Reading

/-!
# Numbers in JSON text

A numeral is an optional minus, an integer part without superfluous zeros, an
optional fraction and an optional exponent. Integers that fit 64 bits are read
exactly. Every other numeral becomes a float from a significand of at most 64
bits: digits that do not fit raise the exponent before the point and are
dropped after it, and the significand is then scaled by one power of ten. The
result can differ from the nearest double in its last place.
-/

namespace QueryLayer

namespace Json

/-- The parts of a numeral. -/
structure Numeral where
  /-- A minus stands in front. -/
  negative : Bool
  /-- The digits before the point. -/
  whole : List Char
  /-- The digits after the point, if there is one. -/
  fraction : Option (List Char)
  /-- The power of ten, if one is given. -/
  exponent : Option Int
deriving DecidableEq, Repr

namespace Numeral

/-- The exponent after the mark `e`: an optional sign and digits. -/
def readExponent (cs : List Char) : Option Int :=
  let (negative, ds) := Decimal.splitSign cs
  if !ds.isEmpty && ds.all Char.isDigit then
    some (if negative then -(Decimal.digitsValue ds : Int) else Decimal.digitsValue ds)
  else none

/-- What follows the integer part and the fraction. -/
def readTail (negative : Bool) (whole : List Char) (fraction : Option (List Char)) :
    List Char → Option Numeral
  | [] => some ⟨negative, whole, fraction, none⟩
  | c :: cs =>
    if c = 'e' ∨ c = 'E' then
      (readExponent cs).map fun e => ⟨negative, whole, fraction, some e⟩
    else none

/-- A numeral without its minus. -/
def readSize (negative : Bool) (cs : List Char) : Option Numeral :=
  let whole := cs.takeWhile Char.isDigit
  let rest := cs.dropWhile Char.isDigit
  if whole.isEmpty || (whole.head? == some '0' && whole.length != 1) then none
  else match rest with
    | '.' :: cs =>
      let fraction := cs.takeWhile Char.isDigit
      if fraction.isEmpty then none
      else readTail negative whole (some fraction) (cs.dropWhile Char.isDigit)
    | _ => readTail negative whole none rest

/-- The numeral a text is. -/
def read : List Char → Option Numeral
  | '-' :: cs => readSize true cs
  | cs => readSize false cs

/-- The largest significand. -/
def maxSignificand : Nat := UInt64.size - 1

/-- Appends digits to a significand for as long as it fits, and says how many
digits were left over. -/
def absorb (significand : Nat) : List Char → Nat × Nat
  | [] => (significand, 0)
  | d :: ds =>
    let next := significand * 10 + (d.toNat - '0'.toNat)
    if next ≤ maxSignificand then absorb next ds else (significand, ds.length + 1)

/-- The significand and the power of ten of a numeral. -/
def scaled (n : Numeral) : Decimal.Scaled :=
  let (significand, left) := absorb 0 n.whole
  let fraction := n.fraction.getD []
  let (significand, dropped) := absorb significand fraction
  ⟨significand, (left : Int) - ((fraction.length : Int) - dropped) + n.exponent.getD 0⟩

/-- A power of ten as a double, for exponents up to 308. -/
def powerOfTen (e : Nat) : Float := Float.ofScientific 1 false e

/-- A double divided by a power of ten, in steps of at most `10 ^ 308`. -/
def divide (x : Float) (e : Nat) : Float :=
  if e ≤ 308 then x / powerOfTen e
  else if x == 0.0 then x
  else divide (x / powerOfTen 308) (e - 308)
termination_by e

/-- The significand scaled by its power of ten; nothing where that is past the
range of doubles. -/
def scale (d : Decimal.Scaled) : Option Float :=
  let x := d.digits.toUInt64.toFloat
  if d.exponent < 0 then some (divide x d.exponent.natAbs)
  else if d.exponent ≤ 308 then
    let y := x * powerOfTen d.exponent.natAbs
    if y.isInf then none else some y
  else if d.digits = 0 then some x else none

/-- The numeral is an integer literal. -/
def isInteger (n : Numeral) : Bool := n.fraction.isNone && n.exponent.isNone

/-- The token of a numeral. Zero with a minus is a float. -/
def token (n : Numeral) : Token :=
  let size := Decimal.digitsValue n.whole
  if n.isInteger && !n.negative && size ≤ maxSignificand then .int size
  else if n.isInteger && n.negative && 0 < size && Int64.minValue.toInt ≤ -size then .int (-(size : Int))
  else match scale n.scaled with
    | some x => .float (if n.negative then -x else x)
    | none => .outOfRange

end Numeral

end Json

end QueryLayer
