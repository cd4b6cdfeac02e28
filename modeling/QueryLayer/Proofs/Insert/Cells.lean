import QueryLayer.Proofs.Walk.Substitution
import QueryLayer.Rows
import Mathlib.Algebra.BigOperators.Group.List.Basic
import Mathlib.Algebra.GroupWithZero.Nat

/-!
# The cells of an insert

The columns of an insert hold literals and markers for the first rows, and every
cell past them stands open like a marker. Steps in a row take the values of the
supply in a row (`InRow`), once for the cells of a row and once for the rows of
an insert. So the rows are known from the columns and the values alone
(`rows_conserve`): the number of values decides whether there are rows, every
literal keeps its cell, and the open cells hold the values in their order.
-/

namespace QueryLayer

/-! ## Steps that take values in a row -/

section Consumes

variable {α β : Type} {R : α → List Value → β → Prop} {xs : List α} {ys : List β}
  {taken : List Value}

/-- From the values that the step takes off the supply it makes a result to
which `R` relates them. -/
def Consumes (x : StateT Supply (Except QueryError) β) (R : List Value → β → Prop) : Prop :=
  ∀ vs k b s, x ⟨vs, k⟩ = .ok (b, s) ↔
    ∃ taken, R taken b ∧ vs = taken ++ s.remaining ∧ s.taken = k + taken.length

/-- Each item makes a result of values of its own, and the values stand in a
row. -/
inductive InRow (R : α → List Value → β → Prop) : List α → List Value → List β → Prop
  | nil : InRow R [] [] []
  | cons {x : α} {xs : List α} {y : β} {ys : List β} {taken taken' : List Value} :
      R x taken y → InRow R xs taken' ys → InRow R (x :: xs) (taken ++ taken') (y :: ys)

/-- **Steps in a row take values in a row.** -/
theorem Consumes.mapM {f : α → StateT Supply (Except QueryError) β}
    (hf : ∀ x, Consumes (f x) (R x)) (xs : List α) : Consumes (xs.mapM f) (InRow R xs) := by
  induction xs with
  | nil =>
    intro vs k ys s
    rw [List.mapM_nil, Run.pure_eq_ok]
    constructor
    · rintro h
      cases h
      exact ⟨[], .nil, rfl, rfl⟩
    · rintro ⟨taken, hrow, hvs, hk⟩
      cases hrow
      obtain rfl : vs = s.remaining := hvs
      obtain rfl : s.taken = k := hk
      rfl
  | cons x xs ih =>
    intro vs k ys s
    rw [List.mapM_cons, Run.bind_eq_ok]
    constructor
    · rintro ⟨y, m, hy, h⟩
      obtain ⟨ys', m', hys, h⟩ := Run.bind_eq_ok.1 h
      cases Run.pure_eq_ok.1 h
      obtain ⟨taken, hx, hvs, hk⟩ := (hf x vs k y m).1 hy
      obtain ⟨taken', hxs, hrest, hk'⟩ := (ih m.remaining m.taken ys' s).1 hys
      refine ⟨taken ++ taken', .cons hx hxs, ?_, ?_⟩
      · rw [hvs, hrest, List.append_assoc]
      · rw [hk', hk, List.length_append, Nat.add_assoc]
    · rintro ⟨taken, hrow, hvs, hk⟩
      cases hrow with
      | @cons _ _ y ys first rest hx hxs =>
        have hhead : f x ⟨vs, k⟩ = .ok (y, ⟨rest ++ s.remaining, k + first.length⟩) :=
          (hf x _ _ _ _).2 ⟨first, hx, by rw [hvs, List.append_assoc], rfl⟩
        have htail := (ih (rest ++ s.remaining) (k + first.length) ys s).2
          ⟨rest, hxs, rfl, by rw [hk, List.length_append, Nat.add_assoc]⟩
        exact ⟨y, _, hhead, Run.bind_eq_ok.2 ⟨ys, s, htail, Run.pure_eq_ok.2 rfl⟩⟩

namespace InRow

theorem length_eq (h : InRow R xs taken ys) : ys.length = xs.length := by
  induction h with
  | nil => rfl
  | cons _ _ ih => rw [List.length_cons, List.length_cons, ih]

/-- Each result is made of values of its own. -/
theorem exists_of_getElem? (h : InRow R xs taken ys) {i : ℕ} {x : α} (hx : xs[i]? = some x) :
    ∃ y, ys[i]? = some y ∧ ∃ t, R x t y := by
  induction h generalizing i with
  | nil => simp at hx
  | @cons x' xs y ys t t' hy _ ih =>
    cases i with
    | zero =>
      obtain rfl : x' = x := Option.some.inj hx
      exact ⟨y, rfl, t, hy⟩
    | succ i => exact ih hx

/-- Where the values can be read off the results, all of them can. -/
theorem flatten_zipWith {g : α → β → List Value} (hg : ∀ x t y, R x t y → g x y = t)
    (h : InRow R xs taken ys) : (List.zipWith g xs ys).flatten = taken := by
  induction h with
  | nil => rfl
  | cons hy _ ih => rw [List.zipWith_cons_cons, List.flatten_cons, hg _ _ _ hy, ih]

/-- The numbers of values that the items take add up. -/
theorem length_taken {n : α → ℕ} (hn : ∀ x t y, R x t y → t.length = n x)
    (h : InRow R xs taken ys) : taken.length = (xs.map n).sum := by
  induction h with
  | nil => rfl
  | cons hy _ ih => rw [List.length_append, List.map_cons, List.sum_cons, hn _ _ _ hy, ih]

/-- And so many values make results. -/
theorem exists_of_length {n : α → ℕ} (hn : ∀ x t, t.length = n x → ∃ y, R x t y) :
    ∀ {xs : List α} {taken : List Value}, taken.length = (xs.map n).sum →
      ∃ ys, InRow R xs taken ys
  | [], taken, h => by
    obtain rfl : taken = [] := List.length_eq_zero_iff.1 h
    exact ⟨[], .nil⟩
  | x :: xs, taken, h => by
    rw [List.map_cons, List.sum_cons] at h
    obtain ⟨y, hy⟩ := hn x (taken.take (n x)) (by rw [List.length_take]; omega)
    have hrest : (taken.drop (n x)).length = (xs.map n).sum := by
      rw [List.length_drop]
      omega
    obtain ⟨ys, hys⟩ := exists_of_length hn hrest
    refine ⟨y :: ys, ?_⟩
    rw [← List.take_append_drop (n x) taken]
    exact .cons hy hys

end InRow

end Consumes

/-! ## Cells -/

namespace Operand

/-- A literal is made of no value, and a marker of one. -/
def Makes : Operand → List Value → Value → Prop
  | .literal v, taken, w => taken = [] ∧ w = v
  | .prepared, taken, w => taken = [w]

theorem consumes_resolve (o : Operand) : Consumes o.resolve o.Makes := by
  intro vs k w s
  obtain ⟨remaining, n⟩ := s
  cases o with
  | literal v =>
    simp only [resolve_literal, Makes, Except.ok.injEq, Prod.mk.injEq, Supply.mk.injEq]
    constructor
    · rintro ⟨rfl, rfl, rfl⟩
      exact ⟨[], ⟨rfl, rfl⟩, rfl, rfl⟩
    · rintro ⟨taken, ⟨rfl, rfl⟩, rfl, rfl⟩
      exact ⟨rfl, rfl, rfl⟩
  | prepared =>
    rw [resolve_prepared]
    cases vs with
    | nil => simp [Supply.take, Makes]
    | cons v vs =>
      simp only [Supply.take, Makes, Except.ok.injEq, Prod.mk.injEq, Supply.mk.injEq]
      constructor
      · rintro ⟨rfl, rfl, rfl⟩
        exact ⟨[v], rfl, rfl, rfl⟩
      · rintro ⟨taken, rfl, hvs, rfl⟩
        obtain ⟨rfl, rfl⟩ := List.cons.inj hvs
        exact ⟨rfl, rfl, rfl⟩

theorem length_of_makes {o : Operand} {taken : List Value} {w : Value} (h : o.Makes taken w) :
    taken.length = o.markers := by
  cases o with
  | literal v => rw [h.1, List.length_nil, markers]
  | prepared => rw [show taken = [w] from h, List.length_singleton, markers]

theorem exists_makes {o : Operand} {taken : List Value} (h : taken.length = o.markers) :
    ∃ w, o.Makes taken w := by
  cases o with
  | literal v => exact ⟨v, List.length_eq_zero_iff.1 h, rfl⟩
  | prepared => exact List.length_eq_one_iff.1 h

/-- The markers among operands, counted. -/
theorem sum_markers (os : List Operand) : (os.map markers).sum = os.countP isPrepared := by
  induction os with
  | nil => rfl
  | cons o os ih =>
    cases o with
    | literal v => simpa [markers, isPrepared] using ih
    | prepared =>
      rw [List.map_cons, List.sum_cons, ih, List.countP_cons_of_pos rfl, markers, Nat.add_comm]

/-- Operands are literals and markers. -/
theorem countP_literal_add (os : List Operand) :
    os.countP (fun o => !o.isPrepared) + os.countP isPrepared = os.length := by
  rw [os.length_eq_countP_add_countP isPrepared, Nat.add_comm]
  simp

end Operand

namespace InsertColumn

/-- What a column holds for a row; past its values it holds a marker. -/
def operandAt (c : InsertColumn) (row : ℕ) : Operand := c.values[row]?.getD .prepared

/-- The column holds no literal for the row. -/
def isOpen (c : InsertColumn) (row : ℕ) : Bool := (c.operandAt row).isPrepared

/-- So many rows of a column hold its values and then markers. -/
theorem map_operandAt_range {c : InsertColumn} {height : ℕ} (h : c.values.length ≤ height) :
    (List.range height).map c.operandAt =
      c.values ++ List.replicate (height - c.values.length) .prepared := by
  refine List.ext_getElem ?_ fun i hi hi' => ?_
  · simp only [List.length_map, List.length_range, List.length_append, List.length_replicate]
    omega
  · rw [List.getElem_map, List.getElem_range, operandAt, List.getElem_append]
    split
    · next hlt => rw [List.getElem?_eq_getElem hlt, Option.getD_some]
    · next hge =>
      rw [List.getElem?_eq_none (by omega), List.getElem_replicate, Option.getD_none]

/-- In so many rows a column has literals and open cells. -/
theorem literals_add_sum_markers {c : InsertColumn} {height : ℕ} (h : c.values.length ≤ height) :
    c.values.countP (fun o => !o.isPrepared) +
      ((List.range height).map fun row => (c.operandAt row).markers).sum = height := by
  have hmarkers : ((List.range height).map fun row => (c.operandAt row).markers).sum =
      c.values.countP Operand.isPrepared + (height - c.values.length) := by
    change ((List.range height).map (Operand.markers ∘ c.operandAt)).sum = _
    rw [← List.map_map, Operand.sum_markers, map_operandAt_range h, List.countP_append,
      List.countP_replicate]
    rfl
  have hsplit := Operand.countP_literal_add c.values
  omega

end InsertColumn

namespace Insert

variable {s : Insert} {height : ℕ} {values : List Value} {rows : List (List Value)}

/-- The number of literals that the columns hold. -/
def literals (s : Insert) : ℕ := s.operands.countP fun o => !o.isPrepared

theorem stored_eq (s : Insert) : s.stored = s.literals + s.markers := by
  rw [stored, literals, markers, Operand.countP_literal_add]

/-- The number of open cells in so many rows. -/
def openCount (s : Insert) (height : ℕ) : ℕ :=
  ((List.range height).map fun row => (s.columns.map fun c => (c.operandAt row).markers).sum).sum

/-- Open cells may be counted column by column. -/
theorem openCount_eq (s : Insert) (height : ℕ) : s.openCount height =
    (s.columns.map fun c => ((List.range height).map fun row => (c.operandAt row).markers).sum).sum := by
  unfold openCount
  induction s.columns with
  | nil => simp
  | cons c cs ih => simp only [List.map_cons, List.sum_cons, List.sum_map_add, ih]

/-- **Literals and open cells fill the rows**, where no column holds more values
than there are rows. -/
theorem literals_add_openCount (hfit : ∀ c ∈ s.columns, c.values.length ≤ height) :
    s.literals + s.openCount height = s.columns.length * height := by
  rw [openCount_eq, literals, operands]
  revert hfit
  induction s.columns with
  | nil => simp
  | cons c cs ih =>
    intro hfit
    obtain ⟨hc, hcs⟩ := List.forall_mem_cons.1 hfit
    have hcolumn := InsertColumn.literals_add_sum_markers hc
    have hrest := ih hcs
    rw [List.flatMap_cons, List.countP_append, List.map_cons, List.sum_cons, List.length_cons,
      Nat.add_mul, Nat.one_mul]
    omega

/-! ## Rows -/

/-- The cells of the columns in one row. -/
def MakesRow (s : Insert) (row : ℕ) : List Value → List Value → Prop :=
  InRow (fun c => (c.operandAt row).Makes) s.columns

theorem consumes_fill (s : Insert) (height : ℕ) :
    Consumes (s.fill height) (InRow s.MakesRow (List.range height)) :=
  .mapM (fun row => .mapM (fun c => (c.operandAt row).consumes_resolve) s.columns) _

/-- The values in the open cells of a row, from left to right. -/
def openInRow (s : Insert) (row : ℕ) (cells : List Value) : List Value :=
  (List.zipWith (fun c v => if c.isOpen row then [v] else []) s.columns cells).flatten

/-- The values in the open cells, row by row. -/
def openCells (s : Insert) (rows : List (List Value)) : List Value :=
  (List.zipWith s.openInRow (List.range rows.length) rows).flatten

theorem openInRow_of_makesRow {row : ℕ} {taken cells : List Value}
    (h : s.MakesRow row taken cells) : s.openInRow row cells = taken := by
  refine h.flatten_zipWith fun c t v hv => ?_
  rw [InsertColumn.isOpen]
  revert hv
  cases c.operandAt row with
  | literal w => exact fun hv => hv.1.symm
  | prepared => exact fun hv => hv.symm

theorem length_of_makesRow {row : ℕ} {taken cells : List Value} (h : s.MakesRow row taken cells) :
    taken.length = (s.columns.map fun c => (c.operandAt row).markers).sum :=
  h.length_taken fun _ _ _ => Operand.length_of_makes

theorem exists_makesRow {row : ℕ} {taken : List Value}
    (h : taken.length = (s.columns.map fun c => (c.operandAt row).markers).sum) :
    ∃ cells, s.MakesRow row taken cells :=
  InRow.exists_of_length (fun _ _ => Operand.exists_makes) h

/-- So many rows take a value for each open cell. -/
theorem length_of_makesRows {taken : List Value}
    (h : InRow s.MakesRow (List.range height) taken rows) : taken.length = s.openCount height :=
  h.length_taken fun _ _ _ hrow => length_of_makesRow hrow

/-- Rows can be filled if there is a value for each open cell. -/
theorem exists_fill_iff : (∃ p, s.fill height (.ofList values) = .ok p) ↔
    s.openCount height ≤ values.length := by
  constructor
  · rintro ⟨⟨rows, rest⟩, h⟩
    obtain ⟨taken, hrows, hvalues, -⟩ := (s.consumes_fill height _ _ _ _).1 h
    rw [hvalues, List.length_append, length_of_makesRows hrows]
    omega
  · intro h
    have htake : (values.take (s.openCount height)).length = s.openCount height :=
      List.length_take_of_le h
    obtain ⟨rows, hrows⟩ := InRow.exists_of_length (fun _ _ => exists_makesRow) htake
    exact ⟨⟨rows, values.drop (s.openCount height), s.openCount height⟩,
      (s.consumes_fill height _ _ _ _).2 ⟨_, hrows, (List.take_append_drop _ _).symm,
        by rw [htake, Nat.zero_add]⟩⟩

/-- The rows of an insert, with what is asked of the numbers before any value is
taken. -/
theorem rows_eq_ok : s.rows values = .ok rows ↔
    (0 < s.columns.length ∧ 0 < s.cellCount values.length ∧
      s.columns.length ∣ s.cellCount values.length ∧
      ∀ c ∈ s.columns, c.values.length ≤ s.cellCount values.length / s.columns.length) ∧
    ∃ rest, s.fill (s.cellCount values.length / s.columns.length) (.ofList values) =
      .ok (rows, rest) := by
  have hfit : (∀ c ∈ s.columns, c.values.length ≤ s.cellCount values.length / s.columns.length) ↔
      s.columns.find? (fun c => s.cellCount values.length / s.columns.length < c.values.length) =
        none := by
    simp only [List.find?_eq_none, decide_eq_true_eq, Nat.not_lt]
  rw [hfit, Nat.dvd_iff_mod_eq_zero, Insert.rows]
  dsimp only
  split
  · next h => simp only [reduceCtorEq, false_iff]; omega
  · next hpositive =>
    split
    · next h => simp only [reduceCtorEq, false_iff]; omega
    · next hwhole =>
      have hnumbers : 0 < s.columns.length ∧ 0 < s.cellCount values.length ∧
          s.cellCount values.length % s.columns.length = 0 := by omega
      split
      · next c hc => simp [hc]
      · next hc =>
        rw [Run.outcome_map_eq_ok]
        constructor
        · rintro ⟨⟨rows, rest⟩, h, rfl⟩
          exact ⟨⟨hnumbers.1, hnumbers.2.1, hnumbers.2.2, hc⟩, rest, h⟩
        · rintro ⟨-, rest, h⟩
          exact ⟨(rows, rest), h, rfl⟩

/-- With a value for each marker the cells are the literals and the values. -/
theorem cellCount_eq {supplied : ℕ} (h : s.markers ≤ supplied) :
    s.cellCount supplied = s.literals + supplied := by
  rw [cellCount, stored_eq]
  omega

/-- The numbers under which an insert has rows for so many runtime values. -/
structure Balanced (s : Insert) (supplied : ℕ) : Prop where
  columns : 0 < s.columns.length
  markers : s.markers ≤ supplied
  cells : 0 < s.literals + supplied
  whole : s.columns.length ∣ s.literals + supplied
  fit : ∀ c ∈ s.columns, c.values.length ≤ (s.literals + supplied) / s.columns.length

/-- The rows have as many open cells as there are values. -/
theorem Balanced.openCount_eq {supplied : ℕ} (h : s.Balanced supplied) :
    s.openCount ((s.literals + supplied) / s.columns.length) = supplied := by
  have hcells := literals_add_openCount h.fit
  rw [Nat.mul_div_cancel' h.whole] at hcells
  omega

/-- **An insert has rows if the numbers are right.** With a marker too many
either the cells do not make rows, or the last markers find no value. -/
theorem exists_rows_iff : (∃ rows, s.rows values = .ok rows) ↔ s.Balanced values.length := by
  constructor
  · rintro ⟨rows, h⟩
    obtain ⟨⟨hcolumns, hpositive, hwhole, hfit⟩, rest, hfill⟩ := rows_eq_ok.1 h
    have hopen := exists_fill_iff.1 ⟨_, hfill⟩
    have hcells := literals_add_openCount hfit
    rw [Nat.mul_div_cancel' hwhole] at hcells
    have htotal : s.cellCount values.length = s.stored + (values.length - s.markers) := rfl
    have hstored := s.stored_eq
    have hmarkers : s.markers ≤ values.length := by omega
    rw [cellCount_eq hmarkers] at hpositive hwhole hfit
    exact ⟨hcolumns, hmarkers, hpositive, hwhole, hfit⟩
  · intro h
    obtain ⟨⟨rows, rest⟩, hfill⟩ := exists_fill_iff.2 (Nat.le_of_eq h.openCount_eq)
    refine ⟨rows, rows_eq_ok.2 ?_⟩
    rw [cellCount_eq h.markers]
    exact ⟨⟨h.columns, h.cells, h.whole, h.fit⟩, rest, hfill⟩

/-- **The rows take all values.** -/
theorem makesRows_of_rows (h : s.rows values = .ok rows) :
    InRow s.MakesRow (List.range ((s.literals + values.length) / s.columns.length)) values rows := by
  have hbalanced := exists_rows_iff.1 ⟨rows, h⟩
  obtain ⟨-, rest, hfill⟩ := rows_eq_ok.1 h
  rw [cellCount_eq hbalanced.markers] at hfill
  obtain ⟨taken, hrows, hvalues, -⟩ := (s.consumes_fill _ _ _ _ _).1 hfill
  have hlength : taken.length = values.length :=
    (length_of_makesRows hrows).trans hbalanced.openCount_eq
  -- as many values are taken as there are, so that none is left
  have hsum : values.length = taken.length + rest.remaining.length := by
    rw [← List.length_append, ← hvalues]
  have hrest : rest.remaining = [] := List.length_eq_zero_iff.1 (by omega)
  rw [hrest, List.append_nil] at hvalues
  rwa [← hvalues] at hrows

theorem length_rows (h : s.rows values = .ok rows) :
    rows.length = (s.literals + values.length) / s.columns.length := by
  rw [(makesRows_of_rows h).length_eq, List.length_range]

/-- Each row has the cells of the columns. -/
theorem exists_row_of_lt (h : s.rows values = .ok rows) {r : ℕ} (hr : r < rows.length) :
    ∃ taken, s.MakesRow r taken rows[r] := by
  have hheight : r < (s.literals + values.length) / s.columns.length := by rwa [← length_rows h]
  obtain ⟨row, hrow, taken, hmakes⟩ :=
    (makesRows_of_rows h).exists_of_getElem? (List.getElem?_range hheight)
  obtain ⟨_, rfl⟩ := List.getElem?_eq_some_iff.1 hrow
  exact ⟨taken, hmakes⟩

theorem length_of_mem_rows (h : s.rows values = .ok rows) {row : List Value} (hrow : row ∈ rows) :
    row.length = s.columns.length := by
  obtain ⟨r, hr, rfl⟩ := List.getElem_of_mem hrow
  obtain ⟨taken, hmakes⟩ := exists_row_of_lt h hr
  exact hmakes.length_eq

/-- A literal stands in its cell. -/
theorem getElem?_row_of_literal (h : s.rows values = .ok rows) {r i : ℕ} (hr : r < rows.length)
    {c : InsertColumn} {v : Value} (hc : s.columns[i]? = some c)
    (hv : c.values[r]? = some (.literal v)) : rows[r][i]? = some v := by
  obtain ⟨taken, hmakes⟩ := exists_row_of_lt h hr
  obtain ⟨w, hw, t, hmakes⟩ := hmakes.exists_of_getElem? hc
  rw [InsertColumn.operandAt, hv] at hmakes
  rw [hw, hmakes.2]

/-- The open cells hold the values. -/
theorem openCells_rows (h : s.rows values = .ok rows) : s.openCells rows = values := by
  have hmakes := makesRows_of_rows h
  rw [openCells, length_rows h]
  exact hmakes.flatten_zipWith fun _ _ _ => openInRow_of_makesRow

/-- **Literals and values are inserted once.** An insert with `L` literals and
`M` markers in `F` columns has rows for `n` values exactly if there are columns,
`n` is `M` at least, the `L + n` cells are some and make whole rows, and no
column holds more values than there are rows. It has `(L + n) / F` rows of `F`
cells then; each literal stands in the row and the column where it was stored,
and the cells without a literal hold the `n` values, row by row and from left to
right. -/
theorem rows_conserve (s : Insert) (values : List Value) :
    ((∃ rows, s.rows values = .ok rows) ↔
      0 < s.columns.length ∧ s.markers ≤ values.length ∧ 0 < s.literals + values.length ∧
        s.columns.length ∣ s.literals + values.length ∧
        ∀ c ∈ s.columns, c.values.length ≤ (s.literals + values.length) / s.columns.length) ∧
    ∀ rows, s.rows values = .ok rows →
      rows.length = (s.literals + values.length) / s.columns.length ∧
      (∀ row ∈ rows, row.length = s.columns.length) ∧
      (∀ (i : ℕ) (c : InsertColumn) (r : ℕ) (v : Value), s.columns[i]? = some c →
        c.values[r]? = some (.literal v) → ∃ row, rows[r]? = some row ∧ row[i]? = some v) ∧
      s.openCells rows = values := by
  constructor
  · rw [exists_rows_iff]
    exact ⟨fun h => ⟨h.columns, h.markers, h.cells, h.whole, h.fit⟩,
      fun ⟨hcolumns, hmarkers, hcells, hwhole, hfit⟩ => ⟨hcolumns, hmarkers, hcells, hwhole, hfit⟩⟩
  · intro rows h
    refine ⟨length_rows h, fun _ => length_of_mem_rows h, ?_, openCells_rows h⟩
    intro i c r v hc hv
    have hfit := (exists_rows_iff.1 ⟨rows, h⟩).fit c (List.mem_of_getElem? hc)
    have hstored : r < c.values.length := (List.getElem?_eq_some_iff.1 hv).1
    have hr : r < rows.length := by
      rw [length_rows h]
      omega
    exact ⟨rows[r], List.getElem?_eq_getElem hr, getElem?_row_of_literal h hr hc hv⟩

/-- Two columns, one with a marker between its literals and one with a literal
for the first row only. -/
def ragged : Insert := ⟨⟨"shop", "people"⟩,
  [⟨"name", [.literal (.text "ann"), .prepared, .literal (.text "eve")]⟩,
    ⟨"age", [.literal (.int 31)]⟩]⟩

/-- Values for the marker and for the two cells past the literal. -/
def raggedValues : List Value := [.text "bob", .int 32, .int 33]

theorem rows_of_ragged_conserve : ∃ rows, ragged.rows raggedValues = .ok rows ∧
    rows = [[.text "ann", .int 31], [.text "bob", .int 32], [.text "eve", .int 33]] ∧
      ragged.literals = 3 ∧ ragged.markers = 1 ∧
      rows.length = (3 + 3) / 2 ∧ (∀ row ∈ rows, row.length = 2) ∧
      (∃ row, rows[2]? = some row ∧ row[0]? = some (.text "eve")) ∧
      ragged.openCells rows = raggedValues ∧
      ¬ ∃ rows, ragged.rows (raggedValues ++ [.null]) = .ok rows := by
  have hrows : ragged.rows raggedValues = .ok _ := rfl
  obtain ⟨-, hcells⟩ := rows_conserve ragged raggedValues
  obtain ⟨hheight, hwidth, hliteral, hopen⟩ := hcells _ hrows
  refine ⟨_, hrows, rfl, rfl, rfl, hheight, hwidth, hliteral 0 _ 2 _ rfl rfl, hopen, ?_⟩
  -- seven cells make no rows of two
  rw [(rows_conserve ragged _).1]
  decide

end Insert

end QueryLayer
