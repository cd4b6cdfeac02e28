import QueryLayer.Build.Call
import Mathlib.Data.Nat.Notation

/-!
# Pages of rows

Rows are counted from one, and so are pages. Pages of one size follow on each
other without gaps: the rows of the first pages, one page after the other, are
the first rows in their order (`rows_pages`).

The numbers of rows are words, and the sum behind the end of a page stops at the
largest of them. So the page that ends with the very last row loses it
(`ofPage_eq`), and a page of that row alone is refused.
-/

namespace QueryLayer

open Saturating Build

namespace Window

/-- The numbers of the rows in the window, counted from one. -/
def rows (w : Window) : List ℕ := List.range' (w.offset.toNat + 1) w.limit.toNat

/-- The windows of the first pages of one size. -/
def pages (size : UInt64) (count : ℕ) : List Window :=
  (List.range count).map fun i => ofPage (.ofNat (i + 1)) size

variable {page size : UInt64} {count : ℕ}

theorem toNat_ne_zero (h : page ≠ 0) : page.toNat ≠ 0 :=
  fun hzero => h (UInt64.toNat_inj.1 hzero)

/-- A page ends its size of rows behind the pages before it. -/
theorem mul_eq_sub_one_mul_add (hpage : page ≠ 0) (size : UInt64) :
    page.toNat * size.toNat = (page.toNat - 1) * size.toNat + size.toNat := by
  obtain ⟨before, hbefore⟩ := Nat.exists_eq_succ_of_ne_zero (toNat_ne_zero hpage)
  rw [hbefore, Nat.succ_sub_one, Nat.succ_mul]

/-- **The rows before a page** are those of the pages before it. -/
theorem toNat_offset_ofPage (hpage : page ≠ 0) (hsize : size ≠ 0)
    (hlast : page.toNat * size.toNat ≤ maxWord) :
    (ofPage page size).offset.toNat = (page.toNat - 1) * size.toNat := by
  have hmul := mul_eq_sub_one_mul_add hpage size
  have hpositive := toNat_ne_zero hsize
  simp only [ofPage, ofRows, toNat_sub, toNat_add, toNat_mul, UInt64.toNat_one]
  omega

/-- **The rows of a page** are as many as its size. Only behind the largest row
number there is no room for the end of a page, and the row is lost. -/
theorem toNat_limit_ofPage (hpage : page ≠ 0) (hsize : size ≠ 0)
    (hlast : page.toNat * size.toNat ≤ maxWord) :
    (ofPage page size).limit.toNat =
      if page.toNat * size.toNat = maxWord then size.toNat - 1 else size.toNat := by
  have hmul := mul_eq_sub_one_mul_add hpage size
  have hpositive := toNat_ne_zero hsize
  simp only [ofPage, ofRows, toNat_sub, toNat_add, toNat_mul, UInt64.toNat_one]
  split <;> omega

theorem toNat_sub_one (hsize : size ≠ 0) : (size - 1).toNat = size.toNat - 1 := by
  have hle : (1 : UInt64) ≤ size := by
    have hpositive := toNat_ne_zero hsize
    rw [UInt64.le_iff_toNat_le, UInt64.toNat_one]
    omega
  rw [UInt64.toNat_sub_of_le _ _ hle, UInt64.toNat_one]

/-- The window of a page, as words. -/
theorem ofPage_eq (hpage : page ≠ 0) (hsize : size ≠ 0)
    (hlast : page.toNat * size.toNat ≤ maxWord) :
    ofPage page size = ⟨if page.toNat * size.toNat = maxWord then size - 1 else size,
      .ofNat ((page.toNat - 1) * size.toNat)⟩ := by
  have hmul := mul_eq_sub_one_mul_add hpage size
  have hfits : (page.toNat - 1) * size.toNat < UInt64.size := by
    have hword : maxWord < UInt64.size := by decide
    omega
  have hlimit := toNat_limit_ofPage hpage hsize hlast
  have hoffset := toNat_offset_ofPage hpage hsize hlast
  have hleft : (ofPage page size).limit =
      if page.toNat * size.toNat = maxWord then size - 1 else size := by
    apply UInt64.toNat_inj.1
    rw [hlimit]
    split
    · exact (toNat_sub_one hsize).symm
    · rfl
  have hright : (ofPage page size).offset = .ofNat ((page.toNat - 1) * size.toNat) := by
    apply UInt64.toNat_inj.1
    rw [hoffset, UInt64.toNat_ofNat_of_lt' hfits]
  rw [← hleft, ← hright]

/-- The number of a page among the first ones, as a word. -/
theorem toNat_ofNat_page (hsize : size ≠ 0) {i : ℕ} (hi : i < count)
    (hcount : count * size.toNat < maxWord) :
    (UInt64.ofNat (i + 1)).toNat = i + 1 ∧ (i + 1) * size.toNat < maxWord := by
  have hpositive : 1 ≤ size.toNat := Nat.one_le_iff_ne_zero.2 (toNat_ne_zero hsize)
  have hmul : (i + 1) * size.toNat ≤ count * size.toNat := Nat.mul_le_mul_right _ hi
  have hle : i + 1 ≤ (i + 1) * size.toNat := Nat.le_mul_of_pos_right _ hpositive
  have hword : maxWord < UInt64.size := by decide
  exact ⟨UInt64.toNat_ofNat_of_lt' (by omega), by omega⟩

/-- The rows of one of the first pages. -/
theorem rows_ofPage (hsize : size ≠ 0) {i : ℕ} (hi : i < count)
    (hcount : count * size.toNat < maxWord) :
    (ofPage (.ofNat (i + 1)) size).rows = List.range' (i * size.toNat + 1) size.toNat := by
  obtain ⟨hnumber, hlast⟩ := toNat_ofNat_page hsize hi hcount
  have hpage : UInt64.ofNat (i + 1) ≠ 0 := by
    intro hzero
    rw [hzero] at hnumber
    exact absurd hnumber (Nat.succ_ne_zero i).symm
  have hend : (UInt64.ofNat (i + 1)).toNat * size.toNat < maxWord := by
    rw [hnumber]
    exact hlast
  rw [rows, toNat_offset_ofPage hpage hsize (Nat.le_of_lt hend),
    toNat_limit_ofPage hpage hsize (Nat.le_of_lt hend), if_neg (Nat.ne_of_lt hend), hnumber,
    Nat.add_sub_cancel]

/-- **Pages tile the rows**: those of the first pages, one page after the other,
are the first rows. -/
theorem rows_pages (hsize : size ≠ 0) (hcount : count * size.toNat < maxWord) :
    (pages size count).flatMap rows = List.range' 1 (count * size.toNat) := by
  rw [pages, List.flatMap_map]
  -- one page more, as long as the pages fit
  have htiles : ∀ n ≤ count, ((List.range n).flatMap fun i => (ofPage (.ofNat (i + 1)) size).rows) =
      List.range' 1 (n * size.toNat) := by
    intro n hn
    induction n with
    | zero => simp
    | succ n ih =>
      rw [List.range_succ, List.flatMap_append, ih (Nat.le_of_succ_le hn), List.flatMap_singleton,
        rows_ofPage hsize hn hcount, Nat.add_comm (n * size.toNat) 1, List.range'_append_1,
        Nat.succ_mul]
  exact htiles count (Nat.le_refl count)

theorem length_rows_of_mem_pages (hsize : size ≠ 0) (hcount : count * size.toNat < maxWord)
    {w : Window} (hw : w ∈ pages size count) : w.rows.length = size.toNat := by
  obtain ⟨i, hi, rfl⟩ := List.mem_map.1 hw
  rw [rows_ofPage hsize (List.mem_range.1 hi) hcount, List.length_range']

end Window

namespace Search

variable {s : Search} {page size : UInt64}

/-- A page is taken as its window. -/
theorem page_eq (hs : s.isLimited = false) (hpage : page ≠ 0) :
    (SearchCall.page page size).apply s =
      if (Window.ofPage page size).limit = 0 then .error (.invalidLimit (Window.ofPage page size))
      else .ok (s.push (.limit (Window.ofPage page size))) := by
  rw [SearchCall.apply, Search.page, if_neg hpage, Search.window, hs]
  rfl

/-- A page is not always its size of rows long: of five pages up to the largest
row number, the last one misses a row. -/
theorem page_of_fifths_not_full :
    ¬ ∀ (s : Search) (page size : UInt64), s.isLimited = false → page ≠ 0 → size ≠ 0 →
      page.toNat * size.toNat ≤ maxWord → (SearchCall.page page size).apply s =
        .ok (s.push (.limit ⟨size, .ofNat ((page.toNat - 1) * size.toNat)⟩)) := by
  intro h
  have hfull := h (.on ⟨"shop", "users"⟩) 5 3689348814741910323 rfl (by decide) (by decide) (by decide)
  rw [page_eq rfl (by decide), if_neg (by decide)] at hfull
  have hentries := congrArg Search.entries (Except.ok.inj hfull)
  have hwindow := Entry.limit.inj (List.cons.inj hentries).1
  exact absurd (congrArg Window.limit hwindow) (by decide)

/-- **Pages tile the rows.** On a search without a limit, a page that ends before
the largest row number takes its size of rows behind those of the pages before
it, and the first pages side by side are the first rows, each in one page. The
page that ends at the largest row number leaves this row out: it is one row
short, and refused if that was its only one. -/
theorem pages_tile (hs : s.isLimited = false) (hsize : size ≠ 0) :
    (∀ page : UInt64, page ≠ 0 →
      (page.toNat * size.toNat < maxWord → (SearchCall.page page size).apply s =
        .ok (s.push (.limit ⟨size, .ofNat ((page.toNat - 1) * size.toNat)⟩))) ∧
      (page.toNat * size.toNat = maxWord → size ≠ 1 → (SearchCall.page page size).apply s =
        .ok (s.push (.limit ⟨size - 1, .ofNat ((page.toNat - 1) * size.toNat)⟩))) ∧
      (page.toNat * size.toNat = maxWord → size = 1 → (SearchCall.page page size).apply s =
        .error (.invalidLimit ⟨0, .ofNat ((page.toNat - 1) * size.toNat)⟩))) ∧
    ∀ count : ℕ, count * size.toNat < maxWord →
      (∀ w ∈ Window.pages size count, w.rows.length = size.toNat) ∧
      (Window.pages size count).flatMap Window.rows = List.range' 1 (count * size.toNat) := by
  refine ⟨fun page hpage => ⟨fun hlast => ?_, fun hlast hone => ?_, fun hlast hone => ?_⟩,
    fun count hcount => ⟨fun w => Window.length_rows_of_mem_pages hsize hcount,
      Window.rows_pages hsize hcount⟩⟩
  · rw [page_eq hs hpage, Window.ofPage_eq hpage hsize (Nat.le_of_lt hlast),
      if_neg (Nat.ne_of_lt hlast), if_neg hsize]
  · have hrest : size - 1 ≠ 0 := fun hzero => hone (by
      rw [← UInt64.sub_add_cancel size 1, hzero, UInt64.zero_add])
    rw [page_eq hs hpage, Window.ofPage_eq hpage hsize (Nat.le_of_eq hlast), if_pos hlast,
      if_neg hrest]
  · subst hone
    rw [page_eq hs hpage, Window.ofPage_eq hpage hsize (Nat.le_of_eq hlast), if_pos hlast]
    rfl

theorem pages_of_ten_tile :
    (SearchCall.page 3 10).apply (.on ⟨"shop", "users"⟩) =
      .ok ((Search.on ⟨"shop", "users"⟩).push (.limit ⟨10, 20⟩)) ∧
    (Window.pages 10 3).flatMap Window.rows = List.range' 1 30 := by
  have hs : (Search.on ⟨"shop", "users"⟩).isLimited = false := rfl
  have hsize : (10 : UInt64) ≠ 0 := by decide
  have htile := pages_tile hs hsize
  exact ⟨(htile.1 3 (by decide)).1 (by decide), (htile.2 3 (by decide)).2⟩

end Search

end QueryLayer
