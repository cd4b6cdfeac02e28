/-!
# The value of a double as an integer times a power of two

`Dyadic.ofBits` decodes the bits of a finite double. `Dyadic.readsBack` says
which decimals lie among the reals that round to it, by comparing naturals: no
step of it rounds.
-/

namespace QueryLayer

namespace Decimal

/-- The decimal `digits * 10 ^ exponent`. -/
structure Scaled where
  /-- The digits, read as one natural number. -/
  digits : Nat
  /-- The power of ten they are scaled by. -/
  exponent : Int
deriving DecidableEq, Repr

/-- The size of a finite double, `mantissa * 2 ^ exponent`. -/
structure Dyadic where
  /-- The integer part of the product. -/
  mantissa : Nat
  /-- The power of two it is scaled by. -/
  exponent : Int
  /-- The gap to the double below is half the gap to the double above. -/
  narrowBelow : Bool
deriving DecidableEq, Repr

namespace Dyadic

/-- The size of the double with these bits. The bits of infinity and of NaN
are no finite size; callers set them apart first. -/
def ofBits (bits : UInt64) : Dyadic :=
  let biased := ((bits >>> 52) &&& 0x7FF).toNat
  let fraction := (bits &&& 0xFFFFFFFFFFFFF).toNat
  if biased = 0 then ⟨fraction, -1074, false⟩
  else ⟨Nat.pow 2 52 + fraction, (biased : Int) - 1075, fraction = 0 ∧ 1 < biased⟩

/-- Compares `a * 10 ^ i` with `n * 2 ^ j`. -/
def compareScaled (a : Nat) (i : Int) (n : Nat) (j : Int) : Ordering :=
  compare (a * Nat.pow 10 i.toNat * Nat.pow 2 (-j).toNat) (n * Nat.pow 2 j.toNat * Nat.pow 10 (-i).toNat)

/-- The decimal rounds to this double: it lies between the two midpoints to
its neighbours, which themselves round here when the mantissa is even. -/
def readsBack (x : Dyadic) (d : Scaled) : Bool :=
  let low := if x.narrowBelow then 4 * x.mantissa - 1 else 4 * x.mantissa - 2
  let high := 4 * x.mantissa + 2
  let closed := x.mantissa % 2 == 0
  let below := compareScaled d.digits d.exponent low (x.exponent - 2)
  let above := compareScaled d.digits d.exponent high (x.exponent - 2)
  (below == .gt || (closed && below == .eq)) && (above == .lt || (closed && above == .eq))

/-- The least power of ten above a size that is not zero, as its exponent. The
binary logarithm gives the exponent up to two, and comparison settles it. -/
def scale (x : Dyadic) : Int :=
  let guess := ((x.mantissa.log2 : Int) + x.exponent) * 30103 / 100000 - 1
  let reaches (k : Int) : Bool := compareScaled 1 k x.mantissa x.exponent == .gt
  ((List.range 5).map (fun i => guess + Int.ofNat i)).find? reaches |>.getD (guess + 5)

/-- The size divided by `10 ^ grid`, as numerator and denominator. -/
def onGrid (x : Dyadic) (grid : Int) : Nat × Nat :=
  (x.mantissa * Nat.pow 2 x.exponent.toNat * Nat.pow 10 (-grid).toNat,
    Nat.pow 2 (-x.exponent).toNat * Nat.pow 10 grid.toNat)

/-- The size written out in full. -/
def exact (x : Dyadic) : Scaled :=
  if 0 ≤ x.exponent then ⟨x.mantissa * Nat.pow 2 x.exponent.toNat, 0⟩
  else ⟨x.mantissa * Nat.pow 5 (-x.exponent).toNat, x.exponent⟩

end Dyadic

end Decimal

end QueryLayer
