import QueryLayer.Proofs.Insert.Cells
import QueryLayer.Proofs.Language.Prepared
import QueryLayer.Proofs.Sql.Placed
import QueryLayer.Proofs.Walk.Success

/-!
# The places that a statement asks for

Before any text is written it is known from the entries of a statement what it needs
placeholders for, and with which values: its assignments, the conditions of its search
at any depth and its window, the defaults of its columns, the cells of its rows
(`statementPlaces`). Runtime values stand where the markers were. The plan of a search
has the tests of its conditions and its window, and the rows of an insert have its
cells, so that nothing is lost or trades places on the way to the text.
-/

namespace QueryLayer

namespace Sql

/-! ## Searches -/

/-- The names a field is written with: the database and the collection where they are
given, and its own. -/
def written (f : FieldRef) : List String :=
  match f.database, f.collection with
  | some database, some collection => [database, collection, f.field]
  | some database, none => [database, f.field]
  | none, some collection => [collection, f.field]
  | none, none => [f.field]

theorem written_eq_parts (f : FieldRef) : written f = f.parts := by
  obtain ⟨database, collection, field⟩ := f
  cases database <;> cases collection <;> rfl

/-- The places of a condition whose values are known. -/
def conditionPlaces (c : Condition) : List (Place × Value) :=
  let subject := (c.target.aggregation, written c.target.field)
  match c.kind, c.value, c.upperBound with
  | .null, _, _ => []
  | .oneOf, .literal (.list vs), _ => vs.mapIdx fun i v => (.item subject i, v)
  | .oneOf, .literal v, _ => [(.item subject 0, v)]
  | .between, .literal lower, some (.literal upper) =>
    [(.lowerBound subject, lower), (.upperBound subject, upper)]
  | .between, _, _ => []
  | kind, .literal v, _ => [(.operand kind subject, v)]
  | _, .prepared, _ => []

/-- The places of a search over entries: those of its conditions in order, and those
of its window behind them, wherever it stands. -/
def searchPlaces (d : Dialect) (es : List Entry) (values : List Value) : List (Place × Value) :=
  (Entry.conditionsAll (Entry.fillAll values es)).flatMap conditionPlaces ++
    (Entry.partsAll es).windows.flatMap (windowPlaces d)

/-- A place where the operand has a value. -/
def operandPlaces (p : Place) : Operand → List (Place × Value)
  | .literal v => [(p, v)]
  | .prepared => []

/-- The place of an assignment whose value is known. -/
def assignmentPlaces (a : Assignment) : List (Place × Value) :=
  operandPlaces (.assignment (written a.field) a.operator) a.value

/-! ## Definitions and rows -/

/-- The place of a default, where the dialect binds defaults and the column does not
count up by its type. -/
def defaultPlaces (d : Dialect) : Definition → List (Place × Value)
  | .column c =>
    if d.defaultStyle = .bound ∧ ¬ (.autoIncrement ∈ c.options ∧ d.autoIncrement = .serial) then
      c.default.toList.map fun v => (.default c.field, v)
    else []
  | .foreignKey _ _ => []

/-- Places with the values of their operands. Markers are given the values in order. -/
def giveOut : List (Place × Operand) → List Value → List (Place × Value)
  | [], _ => []
  | (p, .literal v) :: ps, vs => (p, v) :: giveOut ps vs
  | (p, .prepared) :: ps, v :: vs => (p, v) :: giveOut ps vs
  | (_, .prepared) :: _, [] => []

/-- The places of a row of an insert, from left to right. -/
def rowPlaces (s : Insert) (r : ℕ) : List (Place × Operand) :=
  s.columns.mapIdx fun i c => (.cell r i [c.field], c.operandAt r)

/-- The places of an insert, row by row. -/
def insertPlaces (s : Insert) (values : List Value) : List (Place × Value) :=
  let height := (s.literals + values.length) / s.columns.length
  giveOut ((List.range height).flatMap (rowPlaces s)) values

/-- The places of a replace: one row with the values of its assignments. -/
def replacePlaces (es : List Entry) (values : List Value) : List (Place × Value) :=
  ((Entry.partsAll (Entry.fillAll values es)).assignments.mapIdx fun i a =>
    operandPlaces (.cell 0 i (written a.field)) a.value).flatten

/-- **The places that a statement asks for**, with their values. -/
def statementPlaces (d : Dialect) (s : Statement) (values : List Value) : List (Place × Value) :=
  match s with
  | .find s => searchPlaces d s.entries values
  | .delete s | .count s => searchPlaces d s.entries values
  | .update s =>
    (Entry.partsAll (Entry.fillAll values s.entries)).assignments.flatMap assignmentPlaces ++
      searchPlaces d s.entries values
  | .insert s => insertPlaces s values
  | .replace s => replacePlaces s.entries values
  | .create s => s.definitions.flatMap (defaultPlaces d) ++
    s.included.toList.flatMap fun find => searchPlaces d find.entries values
  | .drop _ | .clear _ => []

/-! ## What a plan has of them -/

variable {d : Dialect} {statement : String} {es : List Entry} {values : List Value} {p : Plan}

/-- A condition asks for the places of its test. -/
theorem conditionPlaces_of_yields {c : Condition} (hc : c.markers = 0) {t : Test}
    (h : c.Yields t) : conditionPlaces c = testPlaces t := by
  obtain ⟨kind, target, value, upper⟩ := c
  obtain ⟨target', k⟩ := t
  obtain ⟨rfl, h⟩ := h
  cases kind with
  | equals | like | lower | higher =>
    -- a criterion of any other kind is not yielded
    cases k <;> try exact h.elim
    cases (Operand.gives_iff_eq_literal hc).1 h
    simp [conditionPlaces, testPlaces, written_eq_parts]
  | null =>
    cases k <;> try exact h.elim
    rfl
  | oneOf =>
    cases k <;> try exact h.elim
    obtain ⟨-, v, hv, rfl⟩ := h
    cases (Operand.gives_iff_eq_literal hc).1 hv
    cases v <;> simp [conditionPlaces, testPlaces, written_eq_parts, Value.toItems]
  | between =>
    cases k <;> try exact h.elim
    obtain ⟨hlower, o, rfl, hupper⟩ := h
    obtain ⟨hvalue, ho⟩ : value.markers = 0 ∧ o.markers = 0 := Nat.add_eq_zero_iff.1 hc
    cases (Operand.gives_iff_eq_literal hvalue).1 hlower
    cases (Operand.gives_iff_eq_literal ho).1 hupper
    simp [conditionPlaces, testPlaces, written_eq_parts]

/-- **A plan that has the meaning and the parts of its entries** has the places that
they ask for. -/
theorem places_eq_searchPlaces {r : Rules} (hmarkers : Entry.markersAll es ≤ values.length)
    (halike : Formula.AlikeAll r.Admits (Entry.formulasAll (Entry.fillAll values es))
      (Predicate.formulas p.predicates))
    (hgrows : (Entry.partsAll es).Grows r .none p.toClauses) (d : Dialect) :
    predicatePlaces p.predicates ++ p.window.toList.flatMap (windowPlaces d) =
      searchPlaces d es values := by
  have hadmits : List.Forall₂ r.Admits (Entry.conditionsAll (Entry.fillAll values es))
      (Predicate.tests p.predicates) := by
    rw [← Entry.leavesAll_formulasAll]
    exact halike.forall₂_leavesAll
  have hconditions := ((Entry.markersAll_eq_zero_iff _).1 (Entry.markersAll_fillAll hmarkers)).1
  have hwindow : p.window.toList = (Entry.partsAll es).windows := hgrows.window
  rw [searchPlaces, ← hwindow, predicatePlaces]
  congr 1
  generalize Entry.conditionsAll (Entry.fillAll values es) = cs at hadmits hconditions ⊢
  generalize Predicate.tests p.predicates = ts at hadmits ⊢
  induction hadmits with
  | nil => rfl
  | cons ht _ ih =>
    obtain ⟨hc, hcs⟩ := List.forall_mem_cons.1 hconditions
    rw [List.flatMap_cons, List.flatMap_cons, ih hcs, conditionPlaces_of_yields hc ht.2.1]

theorem places_of_ofEntries (h : Plan.ofEntries (rules d statement) es values = .ok p) :
    predicatePlaces p.predicates ++ p.window.toList.flatMap (windowPlaces d) =
      searchPlaces d es values := by
  obtain ⟨hmarkers, -, halike, hgrows⟩ := (Plan.ofEntries_eq_ok (blind_rules d statement)).1 h
  exact places_eq_searchPlaces hmarkers halike hgrows d

/-! ## What the rows of an insert have of them -/

section Rows

/-- Values that operands in a row take are given out to their places. -/
theorem giveOut_of_inRow {ps : List (Place × Operand)} {taken : List Value} {ys : List Value}
    (h : InRow (fun x => x.2.Makes) ps taken ys) (qs : List (Place × Operand))
    (rest : List Value) : giveOut (ps ++ qs) (taken ++ rest) =
      List.zipWith (fun x v => (x.1, v)) ps ys ++ giveOut qs rest := by
  induction h with
  | nil => rfl
  | @cons x ps y ys t t' hy _ ih =>
    obtain ⟨p, o⟩ := x
    cases o with
    | literal v =>
      obtain ⟨rfl, rfl⟩ := hy
      rw [List.cons_append, List.nil_append, giveOut, ih]
      rfl
    | prepared =>
      obtain rfl : t = [y] := hy
      rw [List.cons_append, List.append_assoc, List.singleton_append, giveOut, ih]
      rfl

variable {s : Insert} {rows : List (List Value)}

/-- The cells of a row, with the names of their columns. -/
def cellPlaces (names : List (List String)) (r : ℕ) (row : List Value) : List (Place × Value) :=
  row.mapIdx fun i v => (.cell r i (names[i]?.getD []), v)

theorem inRow_rowPlaces {r : ℕ} {taken row : List Value} (h : s.MakesRow r taken row) :
    InRow (fun x => x.2.Makes) (rowPlaces s r) taken row := by
  -- places are numbered from the first column on, which does not matter here
  have hnumbered : ∀ (k : ℕ → InsertColumn → Place) {cs : List InsertColumn} {taken row : List Value},
      InRow (fun c => (c.operandAt r).Makes) cs taken row →
        InRow (fun x => x.2.Makes) (cs.mapIdx fun i c => (k i c, c.operandAt r)) taken row := by
    intro k cs taken row h
    induction h generalizing k with
    | nil => exact .nil
    | cons hy _ ih =>
      rw [List.mapIdx_cons]
      exact .cons hy (ih fun i => k (i + 1))
  exact hnumbered (fun i c => .cell r i [c.field]) h

theorem zipWith_rowPlaces {r : ℕ} {row : List Value} (hrow : row.length = s.columns.length) :
    List.zipWith (fun x v => (x.1, v)) (rowPlaces s r) row =
      cellPlaces (s.columns.map fun c => [c.field]) r row := by
  refine List.ext_getElem (by simp [rowPlaces, cellPlaces, hrow]) fun i hi _ => ?_
  have hcolumn : i < s.columns.length := by simpa [rowPlaces, hrow] using hi
  simp [rowPlaces, cellPlaces, List.getElem?_eq_getElem hcolumn]

/-- **The rows of an insert have the cells it asks for.** -/
theorem cellPlaces_of_rows (h : s.rows values = .ok rows) :
    (rows.mapIdx (cellPlaces (s.columns.map fun c => [c.field]))).flatten =
      insertPlaces s values := by
  have hrows := Insert.makesRows_of_rows h
  -- row by row, from any row on
  have hfrom : ∀ {rs : List ℕ} {taken : List Value} {rows : List (List Value)},
      InRow s.MakesRow rs taken rows → giveOut (rs.flatMap (rowPlaces s)) taken =
        (List.zipWith (cellPlaces (s.columns.map fun c => [c.field])) rs rows).flatten := by
    intro rs taken rows h
    induction h with
    | nil => rfl
    | cons hrow _ ih =>
      rw [List.flatMap_cons, giveOut_of_inRow (inRow_rowPlaces hrow), ih,
        zipWith_rowPlaces hrow.length_eq, List.zipWith_cons_cons, List.flatten_cons]
  rw [insertPlaces, hfrom hrows, ← Insert.length_rows h]
  congr 1
  refine List.ext_getElem (by simp) fun r _ _ => ?_
  rw [List.getElem_mapIdx, List.getElem_zipWith, List.getElem_range]

end Rows

end Sql

end QueryLayer
