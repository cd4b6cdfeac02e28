import QueryLayer.Decimal.Reading
import Mathlib

/-!
# The double nearest to an integer

Only zero is rounded to zero (`ofInt64_beq_zero`), so a quotient by an integer
is refused for that integer alone. The rounding is followed through the model
of binary64: a natural number that is not zero is first shifted to 53 bits or
more, which keeps its exponent far above that of the least doubles, then rounded
to 53 bits, which may carry into a 54th and be done again, and at last packed,
where its biased exponent is not zero.
-/

namespace QueryLayer

namespace Decimal

open Float.Model Float.Model.UnpackedFloat

/-! ## Rounding to 53 bits -/

theorem mantissa_shiftRight (em : ExtendedMantissa) (n : ℕ) :
    (em >>> n).mantissa = em.mantissa / 2 ^ n := by
  induction n with
  | zero => simp [HShiftRight.hShiftRight, Nat.repeat]
  | succ n ih =>
    change (em >>> n).mantissa / 2 = _
    rw [ih, Nat.div_div_eq_div_mul, Nat.pow_succ]

theorem mantissa_ofMantissaAndAccuracy (m : ℕ) (a : Accuracy) :
    (ExtendedMantissa.ofMantissaAndAccuracy m a).mantissa = m := by
  unfold ExtendedMantissa.ofMantissaAndAccuracy
  split <;> rfl

/-- Rounding never goes down, and up by one at most. -/
theorem roundToNearestEven_bounds (m : ℕ) (a : Accuracy) :
    m ≤ a.roundToNearestEven m ∧ a.roundToNearestEven m ≤ m + 1 := by
  unfold Accuracy.roundToNearestEven
  split <;> omega

/-- At or above one, a number of more than 53 bits is shifted to 53. -/
theorem shiftToTargetExponent_of_nonneg {m : ℕ} {e : ℤ} (he : 0 ≤ m.log2 + e) (a : Accuracy) :
    shiftToTargetExponent Format.binary64 m e a =
      (ExtendedMantissa.ofMantissaAndAccuracy m a >>> (m.log2 - 52), e + (m.log2 - 52 : ℕ)) := by
  have hshift : (Format.binary64.targetExponent (totalExponent m e) - e).toNat = m.log2 - 52 := by
    simp only [Format.targetExponent, totalExponent, Format.mantissaBits, Format.minExponent]
    omega
  simp only [shiftToTargetExponent, shiftToExponent, hshift]

/-- The leading 53 bits of a number that has them. -/
theorem div_bounds {m : ℕ} (hm : 52 ≤ m.log2) :
    2 ^ 52 ≤ m / 2 ^ (m.log2 - 52) ∧ m / 2 ^ (m.log2 - 52) < 2 ^ 53 := by
  have hpos : 0 < 2 ^ (m.log2 - 52) := Nat.two_pow_pos _
  have hm0 : m ≠ 0 := by
    rintro rfl
    simp at hm
  have hlow : 2 ^ 52 * 2 ^ (m.log2 - 52) ≤ m := by
    rw [← Nat.pow_add, Nat.add_sub_cancel' hm]
    exact Nat.log2_self_le hm0
  have hhigh : m < 2 ^ 53 * 2 ^ (m.log2 - 52) := by
    rw [← Nat.pow_add]
    have hexp : 53 + (m.log2 - 52) = m.log2 + 1 := by omega
    rw [hexp]
    exact Nat.lt_log2_self
  exact ⟨(Nat.le_div_iff_mul_le hpos).2 hlow, (Nat.div_lt_iff_lt_mul hpos).2 hhigh⟩

/-- A number at or above one that has 53 bits keeps 53 of them. -/
theorem roundWithAccuracy_finite {m : ℕ} {e : ℤ} (hm : 52 ≤ m.log2) (he : 0 ≤ m.log2 + e)
    (s : Sign) : ∃ (m' : ℕ) (e' : ℤ) (h : 0 < m'), 0 ≤ 52 + e' ∧ m'.log2 = 52 ∧
      roundWithAccuracy Format.binary64 s m e .exact = .finite s m' e' h := by
  obtain ⟨hlow, hhigh⟩ := div_bounds hm
  have hmantissa : (ExtendedMantissa.ofMantissaAndAccuracy m .exact >>> (m.log2 - 52)).mantissa =
      m / 2 ^ (m.log2 - 52) := by
    rw [mantissa_shiftRight, mantissa_ofMantissaAndAccuracy]
  generalize hem : ExtendedMantissa.ofMantissaAndAccuracy m .exact >>> (m.log2 - 52) = em
    at hmantissa
  -- rounding may carry into a 54th bit, so the result is shifted once more
  obtain ⟨hr, hr'⟩ := roundToNearestEven_bounds em.mantissa em.accuracy
  have hrounded : 52 ≤ em.roundedMantissa.log2 := by
    rw [Nat.le_log2 (by unfold ExtendedMantissa.roundedMantissa; omega)]
    exact le_trans (hmantissa ▸ hlow) hr
  have hshift := shiftToTargetExponent_of_nonneg he .exact
  have hshift' := shiftToTargetExponent_of_nonneg (m := em.roundedMantissa)
    (e := e + (m.log2 - 52 : ℕ)) (by omega) .exact
  obtain ⟨hlow', hhigh'⟩ := div_bounds hrounded
  have hfinal : (ExtendedMantissa.ofMantissaAndAccuracy em.roundedMantissa .exact >>>
      (em.roundedMantissa.log2 - 52)).mantissa =
        em.roundedMantissa / 2 ^ (em.roundedMantissa.log2 - 52) := by
    rw [mantissa_shiftRight, mantissa_ofMantissaAndAccuracy]
  have hpos : 0 < em.roundedMantissa / 2 ^ (em.roundedMantissa.log2 - 52) := by omega
  refine ⟨_, e + (m.log2 - 52 : ℕ) + (em.roundedMantissa.log2 - 52 : ℕ), hpos, by omega, ?_, ?_⟩
  · exact (Nat.log2_eq_iff (by omega)).2 ⟨hlow', hhigh'⟩
  · simp only [roundWithAccuracy, hshift, hem, hshift', hfinal]
    rw [dif_neg (by omega)]

/-- A natural number that is not zero rounds to 53 bits at or above one. -/
theorem round_natural {m : ℕ} (hm : m ≠ 0) (s : Sign) :
    ∃ (m' : ℕ) (e' : ℤ) (h : 0 < m'), -52 ≤ e' ∧ m'.log2 = 52 ∧
      UnpackedFloat.round Format.binary64 s m 0 = .finite s m' e' h := by
  have hshift : ((0 : ℤ) - Format.binary64.targetExponent (totalExponent m 0)).toNat =
      52 - m.log2 := by
    simp only [Format.targetExponent, totalExponent, Format.mantissaBits, Format.minExponent]
    omega
  have hlog : (m <<< (52 - m.log2)).log2 = m.log2 + (52 - m.log2) := by
    have hne : m <<< (52 - m.log2) ≠ 0 := by
      rw [Nat.shiftLeft_eq]
      exact Nat.mul_ne_zero hm (Nat.two_pow_pos _).ne'
    rw [Nat.log2_eq_iff hne, Nat.shiftLeft_eq, Nat.add_right_comm, Nat.pow_add, Nat.pow_add]
    exact ⟨Nat.mul_le_mul_right _ (Nat.log2_self_le hm),
      Nat.mul_lt_mul_of_pos_right Nat.lt_log2_self (Nat.two_pow_pos _)⟩
  simp only [UnpackedFloat.round, decreaseExponent, hshift]
  obtain ⟨m', e', h, he, hlog', hround⟩ := roundWithAccuracy_finite
    (m := m <<< (52 - m.log2)) (e := 0 - (52 - m.log2 : ℕ)) (by omega) (by omega) s
  exact ⟨m', e', h, by omega, hlog', hround⟩

/-! ## Packing -/

/-- Only a zero exponent is read as zero. -/
theorem unpack_packComponents_ne_zero {s t : Sign}
    {exponent : BitVec Format.binary64.exponentBits}
    {mantissa : BitVec Format.binary64.mantissaBitsWithoutImplicit} (h : exponent ≠ 0#_) :
    UnpackedFloat.unpack Format.binary64 (packComponents Format.binary64 s exponent mantissa) ≠
      .zero t := by
  unfold UnpackedFloat.unpack
  simp only [unpackExponent_packComponents, unpackMantissa_packComponents, h, if_false]
  split
  · split <;> simp
  · simp

/-- A number at or above one is not packed as zero, even where it overflows. -/
theorem unpack_pack_ne_zero {m : ℕ} {e : ℤ} (h : 0 < m) (hm : m.log2 = 52) (he : -52 ≤ e)
    (s t : Sign) : UnpackedFloat.unpack Format.binary64
      (UnpackedFloat.pack Format.binary64 (.finite s m e h)) ≠ .zero t := by
  simp only [UnpackedFloat.pack]
  split
  · rw [packedInfinity]
    exact unpack_packComponents_ne_zero (by decide)
  · next hfits =>
    rw [if_pos (by simp [hm, Format.mantissaBits])]
    refine unpack_packComponents_ne_zero fun hzero => ?_
    have hbias : (Format.binary64.exponentBias : ℤ) = 1023 := rfl
    have hval := congrArg BitVec.toNat hzero
    simp only [BitVec.toNat_ofNat, hbias] at hval hfits
    omega

/-! ## Integers -/

theorem beq_zero_of_ne {x : UnpackedFloat} (h : ∀ t, x ≠ .zero t) :
    x.beq (.zero .positive) = false := by
  cases x with
  | zero t => exact absurd rfl (h t)
  | notANumber => rfl
  | infinity s => cases s <;> rfl
  | finite s m e hm => cases s <;> rfl

theorem unpack_pack_round_ne_zero {m : ℕ} (hm : m ≠ 0) (s t : Sign) :
    UnpackedFloat.unpack Format.binary64
      (UnpackedFloat.pack Format.binary64 (UnpackedFloat.round Format.binary64 s m 0)) ≠
        .zero t := by
  obtain ⟨m', e', h, he, hlog, hround⟩ := round_natural hm s
  rw [hround]
  exact unpack_pack_ne_zero h hlog he s t

/-- **Only zero becomes zero**, of either sign. -/
theorem ofInt64_beq_zero (n : Int64) : (ofInt64 n == 0.0) = (n == 0) := by
  have hbeq : (ofInt64 n == 0.0) =
      (UnpackedFloat.unpack Format.binary64 (UnpackedFloat.pack Format.binary64
        (UnpackedFloat.ofInt64 Format.binary64 n))).beq (.zero .positive) := rfl
  by_cases h : n = 0
  · subst h
    rfl
  · rw [hbeq, beq_eq_false_iff_ne.2 h]
    refine beq_zero_of_ne fun t => ?_
    have hint : n.toInt ≠ 0 := fun h0 => h (Int64.toInt_inj.1 h0)
    -- the sign goes apart, and the size is a natural number
    simp only [UnpackedFloat.ofInt64, UnpackedFloat.ofInt, UnpackedFloat.normalize]
    cases hcmp : compare n.toInt 0 with
    | lt => exact unpack_pack_round_ne_zero (by rw [compare_lt_iff_lt] at hcmp; omega) _ t
    | eq => exact absurd (compare_eq_iff_eq.1 hcmp) hint
    | gt => exact unpack_pack_round_ne_zero (by rw [compare_gt_iff_gt] at hcmp; omega) _ t

end Decimal

end QueryLayer
