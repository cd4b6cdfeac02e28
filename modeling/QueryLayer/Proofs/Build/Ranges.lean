import QueryLayer.Proofs.Build.Pages

/-!
# Ranges of rows

Rows are asked for by the numbers of the first and the last of them, counted from
one. The window of a range counts its rows up to one behind the last, and the rows
before it up to one before the first; each of the two sums stops at an end of the
words. The two agree on a range that begins with a row and ends before the largest
row number, and on the range of all words, where both are cut
(`mem_rows_ofRows_iff_inRange`). Where only one is cut, the window is one row off:
too long for a range from zero on, too short for one up to the largest row number
(`index_takesRange_iff`).
-/

namespace QueryLayer

open Saturating Build

/-- The number of a row lies in the range. Rows are counted from one. -/
def InRange (first last : UInt64) (r : ℕ) : Prop := 1 ≤ r ∧ first.toNat ≤ r ∧ r ≤ last.toNat

/-- A word is at most the largest one. -/
theorem toNat_le_maxWord (n : UInt64) : n.toNat ≤ maxWord := Nat.le_sub_one_of_lt n.toNat_lt

/-- The range holds a row. -/
theorem exists_inRange_iff {first last : UInt64} :
    (∃ r, InRange first last r) ↔ 1 ≤ last.toNat ∧ first.toNat ≤ last.toNat := by
  constructor
  · rintro ⟨r, hone, hfirst, hlast⟩
    omega
  · rintro ⟨hone, hle⟩
    exact ⟨last.toNat, hone, hle, Nat.le_refl _⟩

namespace Window

variable {first last : UInt64} {r : ℕ}

theorem mem_rows {w : Window} :
    r ∈ w.rows ↔ w.offset.toNat < r ∧ r ≤ w.offset.toNat + w.limit.toNat := by
  rw [rows, List.mem_range'_1]
  omega

theorem toNat_offset_ofRows : (ofRows first last).offset.toNat = first.toNat - 1 := by
  rw [ofRows, toNat_sub, UInt64.toNat_one]

theorem toNat_limit_ofRows :
    (ofRows first last).limit.toNat = min (last.toNat + 1) maxWord - first.toNat := by
  rw [ofRows, toNat_sub, toNat_add, UInt64.toNat_one]

/-- The rows of the window of a range, with both ends where they are cut. -/
theorem mem_rows_ofRows : r ∈ (ofRows first last).rows ↔
    first.toNat - 1 < r ∧
      r ≤ first.toNat - 1 + (min (last.toNat + 1) maxWord - first.toNat) := by
  rw [mem_rows, toNat_offset_ofRows, toNat_limit_ofRows]

/-- The window of a range takes a row unless its end is cut to its beginning. -/
theorem limit_ofRows_eq_zero_iff :
    (ofRows first last).limit = 0 ↔ min (last.toNat + 1) maxWord ≤ first.toNat := by
  rw [← UInt64.toNat_inj, toNat_limit_ofRows, UInt64.toNat_zero, Nat.sub_eq_zero_iff_le]

/-- **The window of a range has the rows of the range**, if neither of its ends is
cut or both are. -/
theorem mem_rows_ofRows_iff_inRange (h : first.toNat = 0 ↔ last.toNat = maxWord) :
    r ∈ (ofRows first last).rows ↔ InRange first last r := by
  have hle := toNat_le_maxWord last
  rw [mem_rows_ofRows, InRange]
  omega

/-- A range from zero on has a window with one row more: the count begins with a
row zero, and the rows before it do not. -/
theorem mem_rows_ofRows_of_first (hfirst : first.toNat = 0) (hlast : last.toNat ≠ maxWord) :
    r ∈ (ofRows first last).rows ↔ 1 ≤ r ∧ r ≤ last.toNat + 1 := by
  have hle := toNat_le_maxWord last
  rw [mem_rows_ofRows]
  omega

/-- A range up to the largest row number has a window without this row. -/
theorem mem_rows_ofRows_of_last (hfirst : first.toNat ≠ 0) (hlast : last.toNat = maxWord) :
    r ∈ (ofRows first last).rows ↔ first.toNat ≤ r ∧ r < last.toNat := by
  have hle := toNat_le_maxWord first
  rw [mem_rows_ofRows]
  omega

end Window

namespace Search

variable {s : Search} {first last : UInt64}

theorem push_limit_inj {v w : Window} : s.push (.limit v) = s.push (.limit w) ↔ v = w := by
  simp [push]

/-- A range is taken as its window. -/
theorem index_eq (hs : s.isLimited = false) (first last : UInt64) :
    (SearchCall.index first last).apply s =
      if (Window.ofRows first last).limit = 0 then .error (.invalidLimit (.ofRows first last))
      else .ok (s.push (.limit (.ofRows first last))) := by
  rw [SearchCall.apply, Search.index, Search.window, hs]
  rfl

/-- A range without a row in its window is refused. -/
theorem index_eq_error (hs : s.isLimited = false)
    (hend : min (last.toNat + 1) maxWord ≤ first.toNat) :
    (SearchCall.index first last).apply s = .error (.invalidLimit (.ofRows first last)) := by
  rw [index_eq hs, if_pos (Window.limit_ofRows_eq_zero_iff.2 hend)]

/-- Any other range adds its window. -/
theorem index_eq_ok (hs : s.isLimited = false)
    (hend : first.toNat < min (last.toNat + 1) maxWord) :
    (SearchCall.index first last).apply s = .ok (s.push (.limit (.ofRows first last))) := by
  rw [index_eq hs, if_neg fun h => Nat.not_le.2 hend (Window.limit_ofRows_eq_zero_iff.1 h)]

/-- The call takes the range: it adds a window of just its rows, and where there
are none it is refused. -/
def TakesRange (s : Search) (first last : UInt64) : Prop :=
  ((∃ r, InRange first last r) → ∃ w, (SearchCall.index first last).apply s =
      .ok (s.push (.limit w)) ∧ ∀ r, r ∈ w.rows ↔ InRange first last r) ∧
    ((¬ ∃ r, InRange first last r) → ∃ w, (SearchCall.index first last).apply s =
      .error (.invalidLimit w))

/-- With both ends as they are, or both cut, the range is taken. -/
theorem takesRange (hs : s.isLimited = false) (h : first.toNat = 0 ↔ last.toNat = maxWord) :
    s.TakesRange first last := by
  have hle := toNat_le_maxWord last
  have hle' := toNat_le_maxWord first
  have hword : 0 < maxWord := by decide
  refine ⟨fun hrow => ?_, fun hnone => ?_⟩
  · rw [exists_inRange_iff] at hrow
    exact ⟨_, index_eq_ok hs (by omega), fun r => Window.mem_rows_ofRows_iff_inRange h⟩
  · rw [exists_inRange_iff] at hnone
    exact ⟨_, index_eq_error hs (by omega)⟩

/-- A range from zero on is not taken: behind its rows there is one more. -/
theorem not_takesRange_of_first (hs : s.isLimited = false) (hfirst : first.toNat = 0)
    (hlast : last.toNat ≠ maxWord) : ¬ s.TakesRange first last := by
  have hle := toNat_le_maxWord last
  have hok : (SearchCall.index first last).apply s = .ok (s.push (.limit (.ofRows first last))) :=
    index_eq_ok hs (by omega)
  rintro ⟨htaken, hrefused⟩
  by_cases hrow : ∃ r, InRange first last r
  · obtain ⟨w, hw, hrows⟩ := htaken hrow
    rw [hok] at hw
    obtain rfl := push_limit_inj.1 (Except.ok.inj hw)
    have hmore : last.toNat + 1 ∈ (Window.ofRows first last).rows :=
      (Window.mem_rows_ofRows_of_first hfirst hlast).2 (by omega)
    have hend := ((hrows _).1 hmore).2.2
    omega
  · obtain ⟨w, hw⟩ := hrefused hrow
    rw [hok] at hw
    cases hw

/-- Nor is one up to the largest row number: it has this row, and its window does
not. -/
theorem not_takesRange_of_last (hs : s.isLimited = false) (hfirst : first.toNat ≠ 0)
    (hlast : last.toNat = maxWord) : ¬ s.TakesRange first last := by
  have hle := toNat_le_maxWord first
  rintro ⟨htaken, -⟩
  have hrow : InRange first last last.toNat := ⟨by omega, by omega, Nat.le_refl _⟩
  obtain ⟨w, hw, hrows⟩ := htaken ⟨_, hrow⟩
  by_cases hone : first.toNat = maxWord
  · rw [index_eq_error hs (by omega)] at hw
    cases hw
  · rw [index_eq_ok hs (by omega)] at hw
    obtain rfl := push_limit_inj.1 (Except.ok.inj hw)
    have hmem := (Window.mem_rows_ofRows_of_last hfirst hlast).1 ((hrows _).2 hrow)
    omega

/-- A range is not always taken: that of all rows misses the last of them. -/
theorem index_of_everyRow_not_takesRange :
    ¬ ∀ (s : Search) (first last : UInt64), s.isLimited = false → s.TakesRange first last := by
  intro h
  have htaken := h (.on ⟨"shop", "users"⟩) 1 18446744073709551615 rfl
  exact not_takesRange_of_last rfl (by decide) (by decide) htaken

/-- **When a range is taken.** On a search without a limit the call adds a window
of just the rows of the range, and refuses a range without rows, exactly if the
range begins with a row and ends before the largest row number, or if neither is
so. A range from zero on becomes a window of one row more, and also the range that
holds no row but zero is accepted. A range up to the largest row number loses this
row, and is refused if that was its only one. -/
theorem index_takesRange_iff (hs : s.isLimited = false) (first last : UInt64) :
    (s.TakesRange first last ↔ (first.toNat = 0 ↔ last.toNat = maxWord)) ∧
      (first.toNat = 0 → last.toNat ≠ maxWord → ∃ w, (SearchCall.index first last).apply s =
        .ok (s.push (.limit w)) ∧ ∀ r, r ∈ w.rows ↔ 1 ≤ r ∧ r ≤ last.toNat + 1) ∧
      (first.toNat ≠ 0 → last.toNat = maxWord → first ≠ last →
        ∃ w, (SearchCall.index first last).apply s = .ok (s.push (.limit w)) ∧
          ∀ r, r ∈ w.rows ↔ first.toNat ≤ r ∧ r < last.toNat) ∧
      (last.toNat = maxWord → first = last → ∃ w, (SearchCall.index first last).apply s =
        .error (.invalidLimit w)) := by
  have hle := toNat_le_maxWord first
  have hle' := toNat_le_maxWord last
  refine ⟨⟨fun htaken => ⟨fun hfirst => ?_, fun hlast => ?_⟩, takesRange hs⟩,
    fun hfirst hlast => ?_, fun hfirst hlast hne => ?_, fun hlast heq => ?_⟩
  · exact Decidable.not_not.1 fun hlast => not_takesRange_of_first hs hfirst hlast htaken
  · exact Decidable.not_not.1 fun hfirst => not_takesRange_of_last hs hfirst hlast htaken
  · exact ⟨_, index_eq_ok hs (by omega), fun r => Window.mem_rows_ofRows_of_first hfirst hlast⟩
  · have hlt : first.toNat ≠ last.toNat := fun h => hne (UInt64.toNat_inj.1 h)
    exact ⟨_, index_eq_ok hs (by omega), fun r => Window.mem_rows_ofRows_of_last hfirst hlast⟩
  · subst heq
    exact ⟨_, index_eq_error hs (by omega)⟩

theorem index_of_thirdToSeventh_takesRange :
    (Search.on ⟨"shop", "users"⟩).TakesRange 3 7 ∧
      (∃ w, (SearchCall.index 0 5).apply (.on ⟨"shop", "users"⟩) =
        .ok ((Search.on ⟨"shop", "users"⟩).push (.limit w)) ∧ 6 ∈ w.rows) ∧
      ∃ w, (SearchCall.index 18446744073709551615 18446744073709551615).apply
        (.on ⟨"shop", "users"⟩) = .error (.invalidLimit w) := by
  have hs : (Search.on ⟨"shop", "users"⟩).isLimited = false := rfl
  have hseventh := (index_takesRange_iff hs 3 7).1.2 (by decide)
  obtain ⟨w, hok, hrows⟩ := (index_takesRange_iff hs 0 5).2.1 (by decide) (by decide)
  have hlast := (index_takesRange_iff hs 18446744073709551615 18446744073709551615).2.2.2
    (by decide) rfl
  exact ⟨hseventh, ⟨w, hok, (hrows 6).2 (by decide)⟩, hlast⟩

end Search

end QueryLayer
