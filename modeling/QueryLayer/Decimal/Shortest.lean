import QueryLayer.Decimal.Dyadic

/-!
# The fewest digits that read back to a double

Of the decimals that round to a double, the one with the fewest digits is
chosen, and of those the closest. Two that are equally close are told apart by
the `Tie` of the number format.
-/

namespace QueryLayer

namespace Decimal

/-- Which of two equally close decimals is chosen. -/
inductive Tie where
  /-- The one whose last digit is even. -/
  | toEven
  /-- The larger one. -/
  | up
deriving DecidableEq, Repr

/-- The candidate of `x` on the grid of multiples of `10 ^ grid`: of its two
neighbours there that round to `x`, the closer one. -/
def candidate (tie : Tie) (x : Dyadic) (grid : Int) : Option Scaled :=
  let (num, den) := x.onGrid grid
  let floor := num / den
  let low : Scaled := ⟨floor, grid⟩
  let high : Scaled := ⟨floor + 1, grid⟩
  match x.readsBack low, x.readsBack high with
  | false, false => none
  | true, false => some low
  | false, true => some high
  | true, true =>
    match compare (2 * num) ((2 * floor + 1) * den), tie with
    | .lt, _ => some low
    | .gt, _ => some high
    | .eq, .up => some high
    | .eq, .toEven => if floor % 2 = 0 then some low else some high

/-- The same decimal with no zero at the end of its digits. -/
def stripZeros (digits : Nat) (exponent : Int) : Scaled :=
  if 0 < digits ∧ digits % 10 = 0 then stripZeros (digits / 10) (exponent + 1)
  else ⟨digits, exponent⟩
termination_by digits
decreasing_by omega

/-- The shortest decimal that rounds to a size that is not zero: the grids of
one digit, two digits and so on are tried in turn. Seventeen digits are enough
for every double, and the full value stands in where they are not. -/
def shortest (tie : Tie) (x : Dyadic) : Scaled :=
  let k := x.scale
  let found := (List.range 17).findSome? fun i => candidate tie x (k - 1 - Int.ofNat i)
  let d := found.getD x.exact
  stripZeros d.digits d.exponent

end Decimal

end QueryLayer
