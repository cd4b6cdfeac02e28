/-!
# Arithmetic that stops at the ends

Row numbers are 64-bit words. A sum, difference or product that would leave
their range is the end of the range instead.
-/

namespace QueryLayer

namespace Saturating

/-- The largest word. -/
def maxWord : Nat := UInt64.size - 1

/-- The word nearest to a number. -/
def clamp (n : Nat) : UInt64 := UInt64.ofNat (min n maxWord)

theorem toNat_clamp (n : Nat) : (clamp n).toNat = min n maxWord := by
  rw [clamp, UInt64.toNat_ofNat']
  apply Nat.mod_eq_of_lt
  have : min n maxWord ≤ maxWord := Nat.min_le_right _ _
  simp only [maxWord, UInt64.size] at this ⊢
  omega

/-- The sum. -/
def add (a b : UInt64) : UInt64 := clamp (a.toNat + b.toNat)

/-- The difference, from zero on. -/
def sub (a b : UInt64) : UInt64 := clamp (a.toNat - b.toNat)

/-- The product. -/
def mul (a b : UInt64) : UInt64 := clamp (a.toNat * b.toNat)

/-! Each operation is the exact one on natural numbers, cut off at the largest
word. A difference needs no cutting. -/

theorem toNat_add (a b : UInt64) : (add a b).toNat = min (a.toNat + b.toNat) maxWord :=
  toNat_clamp _

theorem toNat_mul (a b : UInt64) : (mul a b).toNat = min (a.toNat * b.toNat) maxWord :=
  toNat_clamp _

theorem toNat_sub (a b : UInt64) : (sub a b).toNat = a.toNat - b.toNat := by
  rw [sub, toNat_clamp]
  have ha : a.toNat < UInt64.size := a.toNat_lt
  apply Nat.min_eq_left
  simp only [maxWord]
  omega

end Saturating

end QueryLayer
