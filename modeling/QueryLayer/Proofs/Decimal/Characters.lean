import QueryLayer.Decimal.NumberFormat

/-!
# The characters of numbers

The text of a number is never empty and holds only digits and a few letters
and marks, whatever its format. So it holds no quote, no blank and no
placeholder, and a reader of SQL or JSON finds its end.
-/

namespace QueryLayer

namespace Decimal

/-- The characters of numbers, infinities and NaN beside their digits. -/
def numberMarks : List Char := ['-', '+', '.', 'e', 'N', 'a', 'i', 'n', 'f']

/-- A character that stands in the text of some number. -/
def InNumber (c : Char) : Prop := c.isDigit ∨ c ∈ numberMarks

theorem inNumber_of_mem_toDigits {n : Nat} {c : Char} (h : c ∈ Nat.toDigits 10 n) : InNumber c :=
  .inl (Nat.isDigit_of_mem_toDigits (by decide) (by decide) h)

theorem inNumber_of_mem_numberMarks {c : Char} (h : c ∈ numberMarks) : InNumber c := .inr h

namespace NumberFormat

variable {f : NumberFormat} {c : Char}

/-- Digits written positionally make a number, and are not lost. -/
theorem inNumber_of_mem_layPositional {ds : List Char} (hds : ∀ c ∈ ds, InNumber c) {point : Int}
    (h : c ∈ f.layPositional ds point) : InNumber c := by
  have hzero : InNumber '0' := .inl (by decide)
  have hpoint : InNumber '.' := .inr (by decide)
  unfold layPositional at h
  split at h
  · -- zeros between the point and the digits
    simp only [List.mem_cons, List.mem_append, List.mem_replicate] at h
    rcases h with rfl | rfl | ⟨-, rfl⟩ | h
    · exact hzero
    · exact hpoint
    · exact hzero
    · exact hds c h
  · split at h
    · -- zeros behind the digits, and perhaps a point with one more
      simp only [List.mem_append, List.mem_replicate] at h
      rcases h with (h | ⟨-, rfl⟩) | h
      · exact hds c h
      · exact hzero
      · cases hz : f.pointZero with
        | false => simp [hz] at h
        | true =>
          simp only [hz, if_true, List.mem_cons, List.not_mem_nil, or_false] at h
          rcases h with rfl | rfl
          · exact hpoint
          · exact hzero
    · -- the point stands among the digits
      simp only [List.mem_append, List.mem_cons] at h
      rcases h with h | rfl | h
      · exact hds c (List.mem_of_mem_take h)
      · exact hpoint
      · exact hds c (List.mem_of_mem_drop h)

theorem layPositional_ne_nil {ds : List Char} (hds : ds ≠ []) (point : Int) :
    f.layPositional ds point ≠ [] := by
  unfold layPositional
  split
  · simp
  · split <;> simp [hds]

/-- Digits written with an exponent make a number. -/
theorem inNumber_of_mem_layScientific {ds : List Char} (hds : ∀ c ∈ ds, InNumber c)
    {exponent : Int} (h : c ∈ layScientific ds exponent) : InNumber c := by
  have hmark : ∀ c ∈ numberMarks, InNumber c := fun _ => inNumber_of_mem_numberMarks
  simp only [layScientific, List.mem_append, List.mem_cons] at h
  rcases h with (h | h) | rfl | rfl | h
  · exact hds c (List.mem_of_mem_take h)
  · split at h
    · cases h
    · rcases List.mem_cons.1 h with rfl | h
      · exact hmark '.' (by simp [numberMarks])
      · exact hds c (List.mem_of_mem_drop h)
  · exact hmark 'e' (by simp [numberMarks])
  · by_cases he : exponent < 0
    · rw [if_pos he]
      exact hmark '-' (by simp [numberMarks])
    · rw [if_neg he]
      exact hmark '+' (by simp [numberMarks])
  · exact inNumber_of_mem_toDigits h

theorem layScientific_ne_nil (ds : List Char) (exponent : Int) : layScientific ds exponent ≠ [] := by
  simp [layScientific]

theorem inNumber_of_mem_lay {d : Scaled} (h : c ∈ f.lay d) : InNumber c := by
  have hds : ∀ c ∈ Nat.toDigits 10 d.digits, InNumber c := fun _ => inNumber_of_mem_toDigits
  unfold lay at h
  dsimp only at h
  split at h
  · exact inNumber_of_mem_layPositional hds h
  · split at h
    · exact inNumber_of_mem_layPositional hds h
    · exact inNumber_of_mem_layScientific hds h

theorem lay_ne_nil (d : Scaled) : f.lay d ≠ [] := by
  unfold lay
  dsimp only
  split
  · exact layPositional_ne_nil Nat.toDigits_ne_nil _
  · split
    · exact layPositional_ne_nil Nat.toDigits_ne_nil _
    · exact layScientific_ne_nil _ _

/-- **The text of a float is made of digits and the marks of numbers.** -/
theorem inNumber_of_mem_write {x : Float} (h : c ∈ f.write x) : InNumber c := by
  have hmark : ∀ cs : List Char, (∀ c ∈ cs, c ∈ numberMarks) → c ∈ cs → InNumber c :=
    fun cs hcs h => inNumber_of_mem_numberMarks (hcs c h)
  have hsign : c ∈ (if isNegative x then ['-'] else []) → InNumber c := by
    intro h
    split at h
    · exact hmark ['-'] (by simp [numberMarks]) h
    · cases h
  unfold write at h
  split at h
  · exact hmark _ (by simp [numberMarks]) h
  · dsimp only at h
    split at h
    · rcases List.mem_append.1 h with h | h
      · exact hsign h
      · exact hmark _ (by simp [numberMarks]) h
    · rcases List.mem_append.1 h with h | h
      · exact hsign h
      · exact inNumber_of_mem_lay h

theorem write_ne_nil (x : Float) : f.write x ≠ [] := by
  unfold write
  split
  · simp
  · dsimp only
    split
    · simp
    · simp [lay_ne_nil]

end NumberFormat

end Decimal

end QueryLayer
