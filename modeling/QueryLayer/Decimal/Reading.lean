/-!
# Numbers read from text

Columns that hold text can be asked for as numbers. An integer is an optional
sign and digits, within 64 signed bits. A float is an optional sign and digits
with an optional point and exponent, or a spelling of infinity or NaN in any
case; it is rounded to the nearest double. No blanks and no other marks are
accepted.
-/

namespace QueryLayer

namespace Decimal

/-- The number that a list of decimal digits spells. -/
def digitsValue (ds : List Char) : Nat := Nat.ofDigitChars 10 ds 0

/-- An integer together with whether a minus stood before it. -/
def splitSign : List Char → Bool × List Char
  | '-' :: cs => (true, cs)
  | '+' :: cs => (false, cs)
  | cs => (false, cs)

/-- The integer a text spells, of any size. -/
def readInt (s : String) : Option Int :=
  let (negative, ds) := splitSign s.toList
  if !ds.isEmpty && ds.all Char.isDigit then
    some (if negative then -(digitsValue ds : Int) else digitsValue ds)
  else none

/-- The integer a text spells, if it fits 64 signed bits. -/
def readInt64 (s : String) : Option Int64 := do
  let n ← readInt s
  if Int64.minValue.toInt ≤ n ∧ n ≤ Int64.maxValue.toInt then some (Int64.ofInt n) else none

/-- What a text says about a float, before it is rounded. -/
inductive FloatText where
  | nan
  | infinite (negative : Bool)
  /-- The decimal `digits * 10 ^ exponent`, with its sign. -/
  | finite (negative : Bool) (digits : Nat) (exponent : Int)
deriving DecidableEq, Repr

/-- The exponent after a mantissa: nothing, or `e` and a signed integer. -/
def readExponent : List Char → Option Int
  | [] => some 0
  | c :: cs =>
    if c = 'e' ∨ c = 'E' then
      let (negative, ds) := splitSign cs
      if !ds.isEmpty && ds.all Char.isDigit then
        some (if negative then -(digitsValue ds : Int) else digitsValue ds)
      else none
    else none

/-- Reads a mantissa with an optional point, and the exponent after it. At
least one digit must stand beside the point. -/
def readMantissa (negative : Bool) (cs : List Char) : Option FloatText :=
  let whole := cs.takeWhile Char.isDigit
  let rest := cs.dropWhile Char.isDigit
  let (fraction, rest) := match rest with
    | '.' :: cs => (cs.takeWhile Char.isDigit, cs.dropWhile Char.isDigit)
    | _ => ([], rest)
  if whole.isEmpty && fraction.isEmpty then none
  else (readExponent rest).map fun e =>
    .finite negative (digitsValue (whole ++ fraction)) (e - fraction.length)

/-- What a text says about a float. -/
def readFloatText (s : String) : Option FloatText :=
  let (negative, cs) := splitSign s.toList
  let word := cs.map Char.toLower
  if word = "inf".toList ∨ word = "infinity".toList then some (.infinite negative)
  else if word = "nan".toList then some .nan
  else readMantissa negative cs

/-- The nearest double to `digits * 10 ^ exponent`. Decimals far outside the
range of doubles are settled by the place of their leading digit. -/
def nearestDouble (digits : Nat) (exponent : Int) : Float :=
  let leading : Int := (Nat.toDigits 10 digits).length + exponent
  if digits = 0 ∨ leading < -400 then 0.0
  else if 400 < leading then 1.0 / 0.0
  else Float.ofScientific digits (exponent < 0) exponent.natAbs

/-- The nearest single-precision value, widened. -/
def nearestSingle (digits : Nat) (exponent : Int) : Float :=
  let leading : Int := (Nat.toDigits 10 digits).length + exponent
  if digits = 0 ∨ leading < -400 then 0.0
  else if 400 < leading then 1.0 / 0.0
  else (Float32.ofScientific digits (exponent < 0) exponent.natAbs).toFloat

/-- The float a text stands for, when sizes are rounded by `nearest`. -/
def FloatText.value (nearest : Nat → Int → Float) : FloatText → Float
  | .nan => 0.0 / 0.0
  | .infinite negative => if negative then -(1.0 / 0.0) else 1.0 / 0.0
  | .finite negative digits exponent =>
    if negative then -(nearest digits exponent) else nearest digits exponent

/-- The double a text spells. -/
def readFloat (s : String) : Option Float := (readFloatText s).map (·.value nearestDouble)

/-- The single-precision float a text spells, widened. -/
def readSingle (s : String) : Option Float := (readFloatText s).map (·.value nearestSingle)

/-! ## Integers as doubles

An integer that meets a double is rounded to the nearest one, and to the one with an
even mantissa where two are as near. Up to `2 ^ 53` nothing is lost. The rounding is
that of the model of binary64, so that it can be reasoned about. -/

/-- The double nearest to an integer. -/
def ofInt64 (n : Int64) : Float := .ofModel (.ofInt64 n)

end Decimal

end QueryLayer
