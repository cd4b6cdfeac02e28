import QueryLayer.Decimal.Shortest

/-!
# How a float is laid out

A `NumberFormat` holds the decisions of one written form: which exponents are
written out positionally, whether a whole number keeps a point and a zero, and
which of two equally short decimals is taken. `json` is the form inside JSON
text and `plain` the form inside SQL text.
-/

namespace QueryLayer

namespace Decimal

/-- The decisions of one written form of floats. -/
structure NumberFormat where
  /-- The exponents of the leading digit that are written positionally, from
  the first bound up to but without the second. Without bounds all are. -/
  positional : Option (Int × Int)
  /-- A whole number is written with a point and a zero. -/
  pointZero : Bool
  /-- The choice between two equally close decimals. -/
  tie : Tie
deriving Repr

namespace NumberFormat

/-- Floats in JSON text: positional from `1e-5` up to `1e16`, always with a
point there, and otherwise with a signed exponent. -/
def json : NumberFormat where
  positional := some (-5, 16)
  pointZero := true
  tie := .toEven

/-- Floats in SQL text: always positional, whole numbers without a point. -/
def plain : NumberFormat where
  positional := none
  pointZero := false
  tie := .up

/-- The digits written positionally; `point` counts the digits before the
point, and is negative where zeros follow it. -/
def layPositional (f : NumberFormat) (ds : List Char) (point : Int) : List Char :=
  if point ≤ 0 then '0' :: '.' :: (List.replicate (-point).toNat '0' ++ ds)
  else if (ds.length : Int) ≤ point then
    ds ++ List.replicate (point - ds.length).toNat '0' ++ (if f.pointZero then ['.', '0'] else [])
  else ds.take point.toNat ++ '.' :: ds.drop point.toNat

/-- The digits written with one digit before the point and an exponent whose
sign always stands. -/
def layScientific (ds : List Char) (exponent : Int) : List Char :=
  let head := ds.take 1
  let tail := ds.drop 1
  let sign := if exponent < 0 then '-' else '+'
  head ++ (if tail.isEmpty then [] else '.' :: tail) ++ 'e' :: sign :: Nat.toDigits 10 exponent.natAbs

/-- The text of a positive or zero decimal. -/
def lay (f : NumberFormat) (d : Scaled) : List Char :=
  let ds := Nat.toDigits 10 d.digits
  let exponent : Int := ds.length - 1 + d.exponent
  match f.positional with
  | none => f.layPositional ds (exponent + 1)
  | some (low, high) =>
    if low ≤ exponent ∧ exponent < high then f.layPositional ds (exponent + 1)
    else layScientific ds exponent

/-- The sign bit is set, also on zero. -/
def isNegative (x : Float) : Bool := x.toBits >>> 63 == 1

/-- The text of a float: its sign, then the shortest decimal that reads back.
Infinities and NaN have the texts `inf` and `NaN`. -/
def write (f : NumberFormat) (x : Float) : List Char :=
  if x.isNaN then ['N', 'a', 'N']
  else
    let sign := if isNegative x then ['-'] else []
    if x.isInf then sign ++ ['i', 'n', 'f']
    else
      let size := Dyadic.ofBits x.toBits
      let d := if size.mantissa = 0 then ⟨0, 0⟩ else shortest f.tie size
      sign ++ f.lay d

/-- The text of a float as a string. -/
def text (f : NumberFormat) (x : Float) : String := String.ofList (f.write x)

end NumberFormat

end Decimal

end QueryLayer
