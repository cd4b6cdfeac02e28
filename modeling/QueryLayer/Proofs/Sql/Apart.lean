import QueryLayer.Proofs.Insert.Cells
import QueryLayer.Proofs.Sql.Traversed
import QueryLayer.Proofs.Sql.Valueless

/-!
# Commands whose values are kept apart

The text of a command and its values can be collected in buffers of their own: a
question mark is written to the one and its value to the other, and buffers are put
together at the end. An update has a buffer for its assignments beside those of its
search, a create collects the values of its defaults line by line and those of its
search behind them, and the rows of an insert are counted in the text and laid out flat
in the values. Nothing in the buffers says which value a question mark is for.

Commands made in this way have the text and the values of those that are rendered, and
fail with the same errors (`Apart.compile_eq`).
-/

namespace QueryLayer

namespace Sql

/-- A command whose text and values were collected apart. -/
structure Compiled where
  /-- The text. -/
  text : String
  /-- The values of its question marks. -/
  params : List Value
  /-- The texts to run afterwards. -/
  additional : List String

namespace Apart

open Traversal (mark)

/-! ## Searches -/

/-- A select. -/
def select (d : Dialect) (s : Find) (values : List Value) :
    Except QueryError (String × List Value) := do
  let (clauses, params) ← Traversal.clauses d "find" s.entries values
  return (d.write (.text "SELECT " :: (projections s.projection ++ [.text " FROM "] ++
    d.table s.collection ++ [.text " "] ++ [.text clauses])), params)

/-- A delete. -/
def delete (d : Dialect) (s : Search) (values : List Value) :
    Except QueryError (String × List Value) := do
  let (clauses, params) ← Traversal.clauses d "delete" s.entries values
  return (d.write (.text "DELETE FROM " :: (d.table s.collection ++ [.text " "] ++
    [.text clauses])), params)

/-- A count. -/
def count (d : Dialect) (s : Search) (values : List Value) :
    Except QueryError (String × List Value) := do
  let (clauses, params) ← Traversal.clauses d "count" s.entries values
  return (d.write ([.text "SELECT COUNT(*) AS ", .name countColumn, .text " FROM "] ++
    d.table s.collection ++ [.text " "] ++ [.text clauses]), params)

/-! ## Assignments -/

/-- The text of an assignment. -/
def assignment (a : Assignment) : Fragment :=
  let field := fieldName a.field
  match a.operator with
  | some op => field ++ [.text "="] ++ field ++ [.text op.symbol.toString, mark]
  | none => field ++ [.text "=", mark]

/-- An entry of an update. An assignment goes to the buffers, and any other entry to
the search. -/
def change (d : Dialect) (buffers : List Fragment × List Value) :
    Entry → Traversal.Step (List Fragment × List Value)
  | .set a => do
    let v ← Traversal.resolve a.value
    return (buffers.1 ++ [assignment a], buffers.2 ++ [v])
  | e => do
    Traversal.push d "update" e
    return buffers

/-- An update. -/
def update (d : Dialect) (s : Search) (values : List Value) :
    Except QueryError (String × List Value) :=
  match (s.entries.foldlM (change d) ([], [])).run (Traversal.start values) with
  | .error e _ => .error e
  | .ok (assignments, params) t =>
    if assignments.isEmpty then .error (.noAssignments s.collection.name)
    else .ok (d.write (.text "UPDATE " :: (d.table s.collection ++ [.text " SET "] ++
      Fragment.join "," assignments ++ [.text (t.finish d).1])), params ++ (t.finish d).2)

/-! ## Rows -/

/-- Question marks in brackets, for so many rows and columns. -/
def rowGroups (rows columns : ℕ) : Fragment :=
  Fragment.join "," (List.replicate rows
    (.text "(" :: (Fragment.join "," (List.replicate columns [mark]) ++ [.text ")"])))

/-- Columns, and the question marks of so many rows. -/
def rowList (columns : List Fragment) (rows : ℕ) : Fragment :=
  [.text " ("] ++ Fragment.join "," columns ++ [.text ") VALUES "] ++
    rowGroups rows columns.length ++ [.text ";"]

/-- An insert. -/
def insert (d : Dialect) (s : Insert) (values : List Value) :
    Except QueryError (String × List Value) := do
  let rows ← s.rows values
  return (d.write (.text "INSERT INTO " :: (d.table s.collection ++
    rowList (s.columns.map fun c => [.name c.field]) rows.length)), rows.flatten)

/-- An entry of a replace, which is a column and its value. -/
def column (d : Dialect) (buffers : List Fragment × List Value) :
    Entry → StateT Supply (Except QueryError) (List Fragment × List Value)
  | .set a => do
    if a.operator.isSome then throw (.insertArithmetic a.field.display)
    let v ← a.value.resolve
    return (buffers.1 ++ [fieldName a.field], buffers.2 ++ [v])
  | _ => throw (.unsupported d.name .filteredReplace)

/-- A replace. -/
def replace (d : Dialect) (s : Search) (values : List Value) :
    Except QueryError (String × List Value) := do
  if d.replaceStyle = .unsupported then throw (.unsupported d.name .replace)
  let ((columns, params), _) ← (s.entries.foldlM (column d) ([], [])).run (.ofList values)
  if columns.isEmpty then throw (.noAssignments s.collection.name)
  return (d.write (.text "REPLACE INTO " :: (d.table s.collection ++ rowList columns 1)), params)

/-! ## Tables -/

/-- The default of a column: a question mark and a value, or a literal. -/
def defaultValue (d : Dialect) (t : DataType) (v : Value) : Fragment × List Value :=
  match d.defaultStyle with
  | .bound => ([.text " DEFAULT ", mark], [v])
  | .inline => (.text " DEFAULT " :: (if t.isTextual then quotedValue v else inlineValue v), [])

/-- The type of a column and its default. -/
def columnType (d : Dialect) (c : Column) (t : NativeType) : Fragment × List Value :=
  if isSerial d c then ([.text (if c.dataType = .long then "BIGSERIAL" else "SERIAL")], [])
  else match c.default with
    | none => ([.text (t.render c.size)], [])
    | some v =>
      let (text, params) := defaultValue d c.dataType v
      (.text (t.render c.size) :: text, params)

/-- One column. -/
def columnDefinition (d : Dialect) (collection : CollectionRef) (c : Column) :
    Except QueryError (Fragment × List Value) :=
  if c.field.isEmpty then .error .missingField
  else match d.types c.dataType with
    | none => .error (.unsupported d.name (.dataType c.dataType))
    | some t =>
      let (text, params) := columnType d c t
      let unique :=
        if d.primaryKeyUnique && c.has .primaryKey && !c.has .unique then [Piece.text " UNIQUE"]
        else []
      .ok ([.name c.field, .text " "] ++ text ++ c.options.flatMap (columnOption d) ++ unique ++
        inlineIndexes d collection c, params)

/-- One line of the definition of a table. -/
def definition (d : Dialect) (collection : CollectionRef) :
    Definition → Except QueryError (Fragment × List Value)
  | .column c => columnDefinition d collection c
  | .foreignKey field key => (foreignKey d collection field key).map fun text => (text, [])

/-- The buffers of a table: its lines, the values of their defaults, and the texts to
run afterwards. -/
structure Table where
  lines : List Fragment
  params : List Value
  additional : List String

/-- Adds a line to the buffers. -/
def line (d : Dialect) (collection : CollectionRef) (buffers : Table) (x : Definition) :
    Except QueryError Table := do
  let (text, params) ← definition d collection x
  return ⟨buffers.lines ++ [text], buffers.params ++ params,
    buffers.additional ++ (afterDefinition d collection x).map d.write⟩

/-- The search that fills a new table, without the blanks at its end. -/
def included (d : Dialect) (s : Create) (values : List Value) :
    Except QueryError (Fragment × List Value) :=
  match s.included with
  | none => .ok ([], [])
  | some find => do
    if !d.createSelect then throw (.unsupported d.name .includedQuery)
    let (text, params) ← select d find values
    return ([.text " AS ", .text (String.ofList (Text.trimEnd text.toList))], params)

/-- A create. -/
def create (d : Dialect) (s : Create) (values : List Value) : Except QueryError Compiled := do
  if s.definitions.isEmpty then throw .missingField
  let table ← s.definitions.foldlM (line d s.collection) ⟨[], [], []⟩
  let (fill, params) ← included d s values
  return ⟨d.write (.text "CREATE TABLE IF NOT EXISTS " :: (d.table s.collection ++ [.text "("] ++
    Fragment.join "," table.lines ++ [.text ")"] ++ engine d s ++ fill ++ [.text ";"])),
    table.params ++ params, table.additional⟩

/-! ## All statements -/

/-- A command that nothing follows. -/
def single (command : String × List Value) : Compiled := ⟨command.1, command.2, []⟩

/-- **The command of a statement**, its text and its values collected apart. -/
def compile (d : Dialect) (s : Statement) (values : List Value) : Except QueryError Compiled :=
  match s with
  | .find s => (select d s values).map single
  | .insert s => (insert d s values).map single
  | .update s => (update d s values).map single
  | .delete s => (delete d s values).map single
  | .replace s => (replace d s values).map single
  | .create s => create d s values
  | .drop target => (drop d target).map fun f => single (d.write f, [])
  | .clear c => .ok (single (d.write (clear d c), []))
  | .count s => (count d s values).map single

/-! ## The same searches -/

open Fragment

variable {d : Dialect} {values : List Value}

/-- The text of a fragment and its values. -/
def both (d : Dialect) (f : Fragment) : String × List Value := (d.write f, bound f)

theorem eq_both {f g : Fragment} {vs : List Value} (htext : write d.quotes g = write d.quotes f)
    (hvalues : vs = bound f) : (d.write g, vs) = both d f := by
  rw [both, Dialect.write, Dialect.write, htext, hvalues]

/-- Behind a head that binds nothing, clauses may be written first. -/
theorem both_written {head f : Fragment} (hhead : slots head = []) :
    (d.write (head ++ [.text (d.write f)]), bound f) = both d (head ++ f) := by
  refine eq_both ?_ ?_
  · rw [write_append, write_append, write_cons, write_nil, List.append_nil, Piece.write,
      Dialect.write, String.toList_ofList]
  · rw [bound_append, bound_of_no_slots hhead, List.nil_append]

theorem select_eq (s : Find) : select d s values = (Sql.select d s values).map (both d) := by
  rw [select, Traversal.clauses_eq, Sql.select]
  cases Plan.ofEntries (rules d "find") s.entries values with
  | error e => rfl
  | ok p =>
    have hhead : slots (.text "SELECT " :: (projections s.projection ++ [.text " FROM "] ++
        d.table s.collection ++ [.text " "])) = [] := by simp
    exact congrArg Except.ok (both_written hhead)

theorem delete_eq (s : Search) : delete d s values = (Sql.delete d s values).map (both d) := by
  rw [delete, Traversal.clauses_eq, Sql.delete]
  cases Plan.ofEntries (rules d "delete") s.entries values with
  | error e => rfl
  | ok p =>
    have hhead : slots (.text "DELETE FROM " :: (d.table s.collection ++ [.text " "])) = [] := by
      simp
    exact congrArg Except.ok (both_written hhead)

theorem count_eq (s : Search) : count d s values = (Sql.count d s values).map (both d) := by
  rw [count, Traversal.clauses_eq, Sql.count]
  cases Plan.ofEntries (rules d "count") s.entries values with
  | error e => rfl
  | ok p =>
    have hhead : slots ([.text "SELECT COUNT(*) AS ", .name countColumn, .text " FROM "] ++
        d.table s.collection ++ [.text " "]) = [] := by simp
    exact congrArg Except.ok (both_written hhead)

/-! ## The same assignments -/

theorem unbound_assignment (a : Assignment) (v : Value) :
    unbound (Sql.assignment a v) = assignment a := by
  have hfield : unbound (fieldName a.field) = fieldName a.field :=
    unbound_of_no_slots (slots_fieldName a.field)
  unfold Sql.assignment assignment
  cases a.operator <;> simp [hfield]

theorem bound_assignment (a : Assignment) (v : Value) : bound (Sql.assignment a v) = [v] := by
  rw [bound_eq_slots]
  unfold Sql.assignment
  dsimp only
  cases a.operator <;> simp

open Traversal in
/-- What the traversal of an update has beside the walk: the assignments with their
values apart, behind those of before, and the operands of the predicates. -/
structure Changed (d : Dialect) (buffers : List Fragment × List Value) (t : Traversal)
    (changes : List (Assignment × Value) × List Predicate) (w : Walk)
    (buffers' : List Fragment × List Value) (t' : Traversal) : Prop where
  buffers_eq : buffers' = (buffers.1 ++ changes.1.map fun x => assignment x.1,
    buffers.2 ++ changes.1.map Prod.snd)
  holds : Holds d w t'
  wrote : Wrote (behind .and false t.opened (operandsAll t.negate changes.2))
    (t.opened || !changes.2.isEmpty) t t'

section

open Traversal

variable {w : Walk} {t : Traversal}

/-- An assignment goes to the buffers and leaves the search as it is. -/
theorem agree_set (h : t.supply = w.supply) (buffers : List Fragment × List Value)
    (a : Assignment) :
    Agree (fun x w' buffers' t' => x.1 = a ∧
        buffers' = (buffers.1 ++ [assignment a], buffers.2 ++ [x.2]) ∧
        ∃ s, w' = { w with supply := s } ∧ t' = { t with supply := s })
      (a.resolved w) ((change d buffers (.set a)).run t) := by
  refine Agree.bind (agree_resolve h a.value) ?_
  rintro v w' _ t' ⟨rfl, hstates⟩
  exact ⟨rfl, rfl, hstates⟩

/-- Any other entry goes to the search and leaves the buffers as they are. -/
theorem agree_pushed (h : Holds d w t) (buffers : List Fragment × List Value) {e : Entry}
    (he : ∀ a, e ≠ .set a) :
    Agree (fun ps w' buffers' t' => buffers' = buffers ∧ Holds d w' t' ∧
        Wrote (behind .and false t.opened (operandsAll t.negate ps)) (t.opened || !ps.isEmpty) t t')
      (e.collect (rules d "update") w) ((change d buffers e).run t) := by
  have hentry := agree_entry d "update" .and false e w t h (by simp)
  have hchange : (change d buffers e).run t =
      finished (fun _ => buffers) id ((entry d "update" .and false e).run t) := by
    have hpush : change d buffers e = push d "update" e >>= fun _ => pure buffers := by
      cases e with
      | set a => exact absurd rfl (he a)
      | condition _ | operation _ _ | join _ | limit _ | orderBy _ | groupBy _ => rfl
    rw [hpush, EStateM.run_bind, push, run_discard]
    cases (entry d "update" .and false e).run t <;> rfl
  rw [hchange]
  obtain ⟨err, t', hx, hy⟩ | ⟨ps, w', b, t', hx, hy, hr⟩ := (hentry.finished _ id).outcomes
  · rw [hx, hy]
    exact rfl
  · rw [hx, hy]
    obtain ⟨b', t'', hr, rfl, rfl⟩ := hr
    refine ⟨rfl, hr.holds, ?_⟩
    rw [hr.isEmpty_eq, Bool.not_not]
    exact hr.wrote

/-- **An update is traversed as it is walked.** -/
theorem agree_changes (es : List Entry) : ∀ (buffers : List Fragment × List Value) (w : Walk)
    (t : Traversal), Holds d w t → Agree (Changed d buffers t)
      (Entry.collectChanges (rules d "update") Assignment.resolved es w)
      ((es.foldlM (change d) buffers).run t) := by
  induction es with
  | nil =>
    intro buffers w t h
    exact ⟨by simp, h, ⟨by simp [behind, operandsAll], by simp [behind, operandsAll, bound],
      by simp, rfl⟩⟩
  | cons e es ih =>
    intro buffers w t h
    rw [List.foldlM_cons]
    by_cases hset : ∃ a, e = .set a
    · obtain ⟨a, rfl⟩ := hset
      refine Agree.bind (agree_set h.supply buffers a) ?_
      rintro ⟨a, v⟩ _ _ _ ⟨rfl, rfl, s, rfl, rfl⟩
      have hrest := ih (buffers.1 ++ [assignment a], buffers.2 ++ [v]) { w with supply := s }
        { t with supply := s } { h with supply := rfl }
      refine hrest.map fun x w' b t' hr => ?_
      exact ⟨by rw [hr.buffers_eq]; simp, hr.holds, { hr.wrote with }⟩
    · have he : ∀ a, e ≠ .set a := fun a ha => hset ⟨a, ha⟩
      have hcollect : Entry.collectChanges (rules d "update") Assignment.resolved (e :: es) =
          e.collect (rules d "update") >>= fun ps =>
            Entry.collectChanges (rules d "update") Assignment.resolved es >>= fun x =>
              pure (x.1, ps ++ x.2) := by
        cases e with
        | set a => exact absurd rfl (he a)
        | condition _ | operation _ _ | join _ | limit _ | orderBy _ | groupBy _ => rfl
      rw [hcollect]
      refine Agree.bind (agree_pushed h buffers he) ?_
      rintro ps w' _ t' ⟨rfl, hholds, hwrote⟩
      refine (ih _ _ _ hholds).map fun x w'' b t'' hr => ?_
      have htext : behind .and false t.opened (operandsAll t.negate (ps ++ x.2)) =
          behind .and false t.opened (operandsAll t.negate ps) ++
            behind .and false t'.opened (operandsAll t'.negate x.2) := by
        rw [operandsAll_append, behind_append, isEmpty_operandsAll, hwrote.opened, hwrote.negate,
          Bool.false_and]
      refine ⟨hr.buffers_eq, hr.holds, ?_⟩
      rw [htext]
      have hempty : (ps ++ x.2).isEmpty = (ps.isEmpty && x.2.isEmpty) := by cases ps <;> rfl
      exact { hwrote.trans hr.wrote with
        opened := by rw [hr.wrote.opened, hwrote.opened, hempty, Bool.not_and, Bool.or_assoc] }

end

/-- Assignments with their values apart. -/
theorem both_assignments (d : Dialect) {head f : Fragment} (hhead : slots head = [])
    (xs : List (Assignment × Value)) :
    (d.write (head ++ Fragment.join "," (xs.map fun x => assignment x.1) ++ [.text (d.write f)]),
        xs.map Prod.snd ++ bound f) =
      both d (head ++ Fragment.join "," (xs.map fun x => Sql.assignment x.1 x.2) ++ f) := by
  have hnames : Fragment.join "," (xs.map fun x => assignment x.1) =
      unbound (Fragment.join "," (xs.map fun x => Sql.assignment x.1 x.2)) := by
    rw [unbound_join, List.map_map]
    exact congrArg _ (List.map_congr_left fun x _ => (unbound_assignment x.1 x.2).symm)
  have hvalues : bound (Fragment.join "," (xs.map fun x => Sql.assignment x.1 x.2)) =
      xs.map Prod.snd := by
    simp [bound_join, List.flatMap_map, bound_assignment, ← List.map_eq_flatMap]
  refine eq_both ?_ ?_
  · rw [hnames, write_append, write_append, write_unbound, write_append, write_append, write_cons,
      write_nil, List.append_nil, Piece.write, Dialect.write, String.toList_ofList]
  · rw [bound_append, bound_append, bound_of_no_slots hhead, hvalues, List.nil_append]

/-- An update has the text and the values of the rendered one. -/
theorem update_eq (s : Search) : update d s values = (Sql.update d s values).map (both d) := by
  have h := agree_changes s.entries ([], []) _ _ (Traversal.holds_start d values)
  have hplan := Plan.ofChanges_resolved (rules d "update") Sql.assignment s.entries values
  rw [update, Sql.update, hplan, Plan.ofChanges]
  obtain ⟨e, t', hwalk, hrun⟩ | ⟨⟨xs, ps⟩, w', b, t', hwalk, hrun, hchanged⟩ := h.outcomes
  · rw [hrun, StateT.run, hwalk]
    rfl
  · rw [hrun, StateT.run, hwalk, hchanged.buffers_eq]
    dsimp only
    rw [Traversal.finish_of_wrote hchanged.holds hchanged.wrote]
    cases xs with
    | nil => rfl
    | cons x xs =>
      have hhead : slots (.text "UPDATE " :: (d.table s.collection ++ [.text " SET "])) = [] := by
        simp
      exact congrArg Except.ok (both_assignments d hhead (x :: xs))

/-! ## The same rows -/

theorem unbound_rowGroups {rows : List (List Value)} {width : ℕ}
    (hwidth : ∀ row ∈ rows, row.length = width) :
    unbound (Sql.rowGroups rows) = rowGroups rows.length width := by
  rw [Sql.rowGroups, unbound_join, rowGroups]
  congr 1
  refine List.eq_replicate_iff.2 ⟨by simp, fun f hf => ?_⟩
  obtain ⟨g, hg, rfl⟩ := List.mem_map.1 hf
  obtain ⟨r, hr, rfl⟩ := List.mem_mapIdx.1 hg
  rw [unbound_text_cons, unbound_append, unbound_join, ← hwidth _ (List.getElem_mem hr)]
  congr 3
  refine List.eq_replicate_iff.2 ⟨by simp, fun f hf => ?_⟩
  obtain ⟨g, hg, rfl⟩ := List.mem_map.1 hf
  obtain ⟨c, hc, rfl⟩ := List.mem_mapIdx.1 hg
  rfl

theorem bound_rowGroups (rows : List (List Value)) : bound (Sql.rowGroups rows) = rows.flatten := by
  have hrow : ∀ (r : ℕ) (row : List Value), bound (.text "(" ::
      (Fragment.join "," (row.mapIdx fun c v => [.slot (.cell r c) v]) ++ [.text ")"])) = row := by
    intro r row
    have hcells : (row.mapIdx fun c v => [Piece.slot (.cell r c) v]).flatMap bound =
        row.flatMap fun v => [v] :=
      flatMap_mapIdx_of_const (h := fun v => [v]) (fun _ _ => rfl) row
    change bound (Fragment.join "," _ ++ [.text ")"]) = row
    rw [bound_append, bound_join, hcells, List.flatMap_singleton']
    exact List.append_nil row
  rw [Sql.rowGroups, bound_join, flatMap_mapIdx_of_const hrow, List.flatMap_id']

/-- Rows with their values apart. -/
theorem both_rowList {head : Fragment} (hhead : slots head = []) {columns : List Fragment}
    (hcolumns : ∀ f ∈ columns, slots f = []) {rows : List (List Value)}
    (hwidth : ∀ row ∈ rows, row.length = columns.length) :
    (d.write (head ++ rowList columns rows.length), rows.flatten) =
      both d (head ++ Sql.rowList columns rows) := by
  have hnames : slots (Fragment.join "," columns) = [] := by
    rw [slots_join, List.flatMap_eq_nil_iff]
    exact hcolumns
  have hlist : rowList columns rows.length = unbound (Sql.rowList columns rows) := by
    simp only [rowList, Sql.rowList, unbound_append, unbound_of_no_slots hnames,
      unbound_rowGroups hwidth]
    rfl
  refine eq_both ?_ ?_
  · rw [hlist, write_append, write_append, write_unbound]
  · simp only [Sql.rowList, bound_append, bound_of_no_slots hhead, bound_of_no_slots hnames,
      bound_rowGroups]
    exact (List.append_nil _).symm

theorem insert_eq (d : Dialect) (s : Insert) (values : List Value) :
    insert d s values = (Sql.insert d s values).map (both d) := by
  rw [insert, Sql.insert]
  cases hrows : s.rows values with
  | error e => rfl
  | ok rows =>
    have hhead : slots (.text "INSERT INTO " :: d.table s.collection) = [] := by simp
    have hcolumns : ∀ f ∈ s.columns.map fun c => [Piece.name c.field], slots f = [] := by
      simp
    have hwidth : ∀ row ∈ rows,
        row.length = (s.columns.map fun c => [Piece.name c.field]).length := by
      intro row hrow
      rw [List.length_map, Insert.length_of_mem_rows hrows hrow]
    exact congrArg Except.ok (both_rowList hhead hcolumns hwidth)

/-- The columns of a replace are collected as they are listed. -/
theorem columns_eq (d : Dialect) (es : List Entry) (buffers : List Fragment × List Value) :
    es.foldlM (column d) buffers =
      (fun xs => (buffers.1 ++ xs.map fun x => fieldName x.1, buffers.2 ++ xs.map Prod.snd)) <$>
        replacements d es := by
  unfold replacements
  induction es generalizing buffers with
  | nil => simp
  | cons e es ih =>
    rw [List.foldlM_cons, List.mapM_cons]
    cases e with
    | set a =>
      cases ho : a.operator with
      | some op =>
        simp only [column, ho]
        rfl
      | none => simp [column, ho, ih]
    | condition _ | operation _ _ | join _ | limit _ | orderBy _ | groupBy _ => rfl

theorem replace_eq (s : Search) : replace d s values = (Sql.replace d s values).map (both d) := by
  rw [replace, Sql.replace, columns_eq, StateT.run_map]
  by_cases hstyle : d.replaceStyle = .unsupported
  · rw [if_pos hstyle, if_pos hstyle]
    rfl
  · rw [if_neg hstyle, if_neg hstyle]
    cases (replacements d s.entries).run (.ofList values) with
    | error e => rfl
    | ok r =>
      obtain ⟨columns, rest⟩ := r
      cases columns with
      | nil => rfl
      | cons x xs =>
        have hhead : slots (.text "REPLACE INTO " :: d.table s.collection) = [] := by simp
        have hcolumns : ∀ f ∈ (x :: xs).map fun c => fieldName c.1, slots f = [] := by
          intro f hf
          obtain ⟨c, -, rfl⟩ := List.mem_map.1 hf
          exact slots_fieldName c.1
        have hwidth : ∀ row ∈ [(x :: xs).map Prod.snd],
            row.length = ((x :: xs).map fun c => fieldName c.1).length := by simp
        have hlist := both_rowList (d := d) hhead hcolumns hwidth
        rw [List.flatten_singleton] at hlist
        exact congrArg Except.ok hlist

/-! ## The same tables -/

/-- The default of a column has its mark where the value is bound. -/
theorem columnType_eq (d : Dialect) (c : Column) (t : NativeType) :
    columnType d c t = (unbound (Sql.columnType d c t), bound (Sql.columnType d c t)) := by
  rw [columnType, Sql.columnType]
  split
  · rfl
  · cases c.default with
    | none => rfl
    | some v =>
      rw [Option.toList_some, List.flatMap_singleton]
      dsimp only
      cases hd : d.defaultStyle with
      | bound =>
        simp only [defaultValue, Sql.defaultValue, hd]
        rfl
      | inline =>
        have hsilent := slots_defaultValue hd c.dataType v
        have hsame : defaultValue d c.dataType v = (Sql.defaultValue d c.dataType v, []) := by
          simp only [defaultValue, Sql.defaultValue, hd]
        rw [hsame, unbound_text_cons, unbound_of_no_slots hsilent]
        exact congrArg _ (bound_of_no_slots hsilent).symm

theorem definition_eq (d : Dialect) (collection : CollectionRef) (x : Definition) :
    definition d collection x =
      (Sql.definition d collection x).map fun f => (unbound f, bound f) := by
  cases x with
  | foreignKey field key =>
    rw [definition, Sql.definition]
    cases h : foreignKey d collection field key with
    | error e => rfl
    | ok f =>
      have hsilent := slots_foreignKey h
      exact congrArg Except.ok (Prod.ext (unbound_of_no_slots hsilent).symm
        (bound_of_no_slots hsilent).symm)
  | column c =>
    rw [definition, Sql.definition, columnDefinition, Sql.columnDefinition]
    split
    · rfl
    · cases d.types c.dataType with
      | none => rfl
      | some t =>
        have hoptions := slots_columnOptions d c.options
        have hindexes := slots_inlineIndexes d collection c
        dsimp only
        rw [columnType_eq]
        simp only [Except.map, unbound_append, bound_append, unbound_of_no_slots hoptions,
          bound_of_no_slots hoptions, unbound_of_no_slots (slots_optional _ _),
          bound_of_no_slots (slots_optional _ _), unbound_of_no_slots hindexes,
          bound_of_no_slots hindexes, List.append_nil]
        rfl

/-- The lines of a table are collected as they are listed. -/
theorem lines_eq (d : Dialect) (collection : CollectionRef) (xs : List Definition) (table : Table) :
    xs.foldlM (line d collection) table =
      (xs.mapM (Sql.definition d collection)).map fun fs =>
        ⟨table.lines ++ fs.map unbound, table.params ++ fs.flatMap bound,
          table.additional ++ (xs.flatMap (afterDefinition d collection)).map d.write⟩ := by
  induction xs generalizing table with
  | nil =>
    cases table
    simp [Except.map, pure, Except.pure]
  | cons x xs ih =>
    rw [List.foldlM_cons, List.mapM_cons, line, definition_eq]
    cases Sql.definition d collection x with
    | error e => rfl
    | ok f =>
      have hrest := ih ⟨table.lines ++ [unbound f], table.params ++ bound f,
        table.additional ++ (afterDefinition d collection x).map d.write⟩
      change xs.foldlM (line d collection) _ = _
      rw [hrest]
      cases xs.mapM (Sql.definition d collection) with
      | error e => rfl
      | ok fs =>
        refine congrArg Except.ok ?_
        simp

/-- The search that fills a table is written first and then put behind its word. -/
theorem included_eq (hd : d.Readable) (s : Create) (values : List Value) :
    (included d s values).map (fun x => (write d.quotes x.1, x.2)) =
      (Sql.included d s values).map fun f => (write d.quotes f, bound f) := by
  rw [included, Sql.included]
  cases s.included with
  | none => rfl
  | some find =>
    dsimp only
    split
    · rfl
    · rw [select_eq]
      cases Sql.select d find values with
      | error e => rfl
      | ok f =>
        have htext : write d.quotes [.text " AS ",
              .text (String.ofList (Text.trimEnd (d.write f).toList))] =
            write d.quotes (.text " AS " :: trimEnd d.quotes f) := by
          have hwritten : (d.write f).toList = write d.quotes f := String.toList_ofList
          simp only [hwritten, write_cons, write_nil, List.append_nil, write_trimEnd, Piece.write,
            String.toList_ofList]
        have hvalues : bound (.text " AS " :: trimEnd d.quotes f) = bound f := by
          rw [bound_eq_slots, slots_text_cons, slots_trimEnd hd.quotes, ← bound_eq_slots]
        exact congrArg Except.ok (Prod.ext htext hvalues.symm)

/-- A table with the values of its lines and of its search apart. -/
theorem both_table (s : Create) (lines : List Fragment) {fill f : Fragment}
    (hfill : write d.quotes fill = write d.quotes f) :
    (d.write (.text "CREATE TABLE IF NOT EXISTS " :: (d.table s.collection ++ [.text "("] ++
        Fragment.join "," (lines.map unbound) ++ [.text ")"] ++ engine d s ++ fill ++ [.text ";"])),
      lines.flatMap bound ++ bound f) =
    both d (.text "CREATE TABLE IF NOT EXISTS " :: (d.table s.collection ++ [.text "("] ++
        Fragment.join "," lines ++ [.text ")"] ++ engine d s ++ f ++ [.text ";"])) := by
  refine eq_both ?_ ?_
  · simp only [write_cons, write_append, hfill, ← unbound_join, write_unbound]
  · have htable : bound (d.table s.collection) = [] := bound_of_no_slots (slots_table d _)
    have hopen : ∀ t g, bound (.text t :: g) = bound g := fun _ _ => rfl
    simp [hopen, htable, bound_of_no_slots (slots_engine d s), bound_join]
    rfl

/-- A create has the text and the values of the rendered one, and the texts behind it. -/
theorem create_eq (hd : d.Readable) (s : Create) : create d s values =
    (Sql.create d s values).map fun q => ⟨q.text, q.params, q.additionalTexts⟩ := by
  rw [create, Sql.create]
  split
  · rfl
  · rw [lines_eq]
    cases s.definitions.mapM (Sql.definition d s.collection) with
    | error e => rfl
    | ok lines =>
      have hincluded := included_eq hd s values
      change (included d s values >>= _) = Except.map _ (Sql.included d s values >>= _)
      cases hx : included d s values with
      | error e =>
        cases hy : Sql.included d s values with
        | error e' =>
          rw [hx, hy] at hincluded
          cases hincluded
          rfl
        | ok f => simp [hx, hy, Except.map] at hincluded
      | ok fill =>
        cases hy : Sql.included d s values with
        | error e' => simp [hx, hy, Except.map] at hincluded
        | ok f =>
          rw [hx, hy] at hincluded
          obtain ⟨htext, hvalues⟩ := Prod.mk.inj (Except.ok.inj hincluded)
          obtain ⟨htext, hparams⟩ := Prod.mk.inj (both_table s lines htext)
          refine congrArg Except.ok ?_
          dsimp only
          rw [List.nil_append, List.nil_append, List.nil_append, htext, hvalues, hparams]
          rfl

/-- **Commands whose values were collected apart are those that are rendered**: the
same text with the same values, or the same error. -/
theorem compile_eq (hd : d.Readable) (s : Statement) : compile d s values =
    (render d s values).map fun q => ⟨q.text, q.params, q.additionalTexts⟩ := by
  have hsingle : ∀ x : Except QueryError Fragment, (x.map (both d)).map single =
      (x.map (Sql.single d)).map fun q => ⟨q.text, q.params, q.additionalTexts⟩ := by
    intro x
    cases x <;> rfl
  cases s with
  | find s => exact (congrArg _ (select_eq s)).trans (hsingle _)
  | insert s => exact (congrArg _ (insert_eq d s values)).trans (hsingle _)
  | update s => exact (congrArg _ (update_eq s)).trans (hsingle _)
  | delete s => exact (congrArg _ (delete_eq s)).trans (hsingle _)
  | replace s => exact (congrArg _ (replace_eq s)).trans (hsingle _)
  | create s => exact create_eq hd s
  | drop target =>
    rw [compile, render]
    cases h : drop d target with
    | error e => rfl
    | ok f =>
      have hvalues : bound f = [] := bound_of_no_slots (slots_drop h)
      exact congrArg (fun vs => Except.ok (single (d.write f, vs))) hvalues.symm
  | clear c =>
    have hvalues : bound (clear d c) = [] := bound_of_no_slots (by simp [clear])
    exact congrArg (fun vs => Except.ok (single (d.write (clear d c), vs))) hvalues.symm
  | count s => exact (congrArg _ (count_eq s)).trans (hsingle _)

end Apart

end Sql

end QueryLayer
