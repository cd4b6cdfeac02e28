import QueryLayer.Proofs.Document.Pipeline
import QueryLayer.Proofs.Language.Selection
import QueryLayer.Proofs.Sql.Counting
import QueryLayer.Session.Executor

/-!
# The size of a count in both languages

SQL counts the rows that pass the filter and then takes the window of the one
row with their number; the document store takes the window of the rows and
counts what is left. So where a count has a window, the two sizes need not be
the same: SQL pays no attention to the limit, and with an offset it has no row
left and its size is zero. `count_sizes` says what either size is, and where
they agree.
-/

namespace QueryLayer

open Session

/-! ## The size of an answer -/

namespace Session

/-- The size is the number in the first row. -/
theorem toNat_sizeOf {o : Outcome} {row : Row} {n : ℕ} (hrow : o.first? = some row)
    (hsize : row.get? countColumn = some (.int (.ofNat n))) (hn : n < 2 ^ 63) :
    (Session.sizeOf o).toNat = n := by
  have hint : row.getInt? countColumn = some (.ofNat n) := by
    rw [Row.getInt?, hsize]
  have hsign : ¬ Int64.ofNat n < 0 := by
    rw [Int64.lt_iff_toInt_lt, Int64.toInt_ofNat_of_lt hn]
    simp
  rw [sizeOf, hrow, Option.bind_some, hint]
  simp only [hsign, if_false, Int64.toUInt64_ofNat', UInt64.toNat_ofNat']
  omega

end Session

/-- The rows of the outcome are the documents. -/
def Outcome.Holds (o : Outcome) (docs : List Document.Doc) : Prop :=
  List.Forall₂ (fun row doc => ∀ name, row.get? name = doc name) o.rows docs

/-- The row with a number is the document with it. -/
theorem holds_numberDoc (n : ℕ) :
    (Outcome.ofRows [⟨[(countColumn, .int (.ofNat n))]⟩]).Holds [Document.numberDoc countColumn n] := by
  refine .cons (fun name => ?_) .nil
  by_cases hname : name = countColumn
  · subst hname
    rfl
  · simp [Row.get?, Document.numberDoc, hname]

/-! ## The two sizes -/

namespace Sql

/-- The size of a count of `n` rows in SQL. -/
def windowedSize (w : Option Window) (n : ℕ) : ℕ :=
  match w with
  | none => n
  | some w => if w.offset = 0 then n else 0

/-- A window with rows holds the one row there is, unless it skips it. -/
theorem Counting.cut_windowOf {α : Type} {w : Option Window} (hlimit : ∀ v ∈ w, v.limit ≠ 0)
    (row : α) : cut (windowOf w) [row] = if ∀ v ∈ w, v.offset = 0 then [row] else [] := by
  cases w with
  | none => simp [windowOf, cut]
  | some w =>
    have hpositive : w.limit.toNat ≠ 0 := fun h => hlimit w rfl (UInt64.toNat_inj.1 h)
    have htake : ∃ k, min w.limit.toNat (2 ^ 63 - 1) = k + 1 :=
      ⟨min w.limit.toNat (2 ^ 63 - 1) - 1, by omega⟩
    obtain ⟨k, hk⟩ := htake
    simp only [windowOf, Option.map_some, cut, hk]
    by_cases hoffset : w.offset = 0
    · simp [hoffset]
    · have hskip : w.offset.toNat ≠ 0 := fun h => hoffset (UInt64.toNat_inj.1 h)
      rw [List.drop_of_length_le (by simp only [List.length_singleton]; omega)]
      simp [hoffset]

/-- **The size in SQL.** The limit is of no consequence, and an offset leaves no
row. -/
theorem toNat_sizeOf_answer {ρ : Type} {c : Counting} (judges : Comparison → ρ → Bool)
    {rows : List ρ} {w : Option Window} (hcolumn : c.column = countColumn)
    (hwindow : c.window = Counting.windowOf w) (hlimit : ∀ v ∈ w, v.limit ≠ 0)
    (hrows : rows.length < 2 ^ 63) :
    (Session.sizeOf (.ofRows (c.answer judges rows))).toNat =
      windowedSize w (rows.countP fun row => c.condition.holds (judges · row)) := by
  have hcount := List.countP_le_length (p := fun row => c.condition.holds (judges · row)) (l := rows)
  rw [Counting.answer, hwindow, hcolumn]
  generalize rows.countP (fun row => c.condition.holds (judges · row)) = n at hcount ⊢
  rw [Counting.cut_windowOf hlimit]
  have hn : n < 2 ^ 63 := by omega
  have hrow : Row.get? ⟨[(countColumn, .int (.ofNat n))]⟩ countColumn = some (.int (.ofNat n)) := rfl
  cases w with
  | none => exact toNat_sizeOf rfl hrow hn
  | some w =>
    by_cases hoffset : w.offset = 0
    · rw [if_pos (by simpa using hoffset), windowedSize, if_pos hoffset]
      exact toNat_sizeOf rfl hrow hn
    · rw [if_neg (by simpa using hoffset), windowedSize, if_neg hoffset]
      rfl

end Sql

namespace Document

/-- The size of a count of `n` documents in the store. -/
def windowedSize (w : Option Window) (n : ℕ) : ℕ :=
  match w with
  | none => n
  | some w => min w.limit.toNat (n - w.offset.toNat)

theorem length_windowed {α : Type} (w : Option Window) (xs : List α) :
    (windowed w xs).length = windowedSize w xs.length := by
  cases w with
  | none => rfl
  | some w => rw [windowed, windowedSize, List.length_take, List.length_drop]

/-- The size of what a last stage counts. -/
theorem toNat_sizeOf_count {store : Store} {docs out : List Doc} {o : Outcome}
    (hrun : (Stage.count countColumn).Makes store docs out) (ho : o.Holds out)
    (hdocs : docs.length < 2 ^ 63) : (Session.sizeOf o).toNat = docs.length := by
  obtain ⟨rows, affected⟩ := o
  change out = if docs.isEmpty then [] else [numberDoc countColumn docs.length] at hrun
  cases docs with
  | nil =>
    obtain rfl : out = [] := hrun
    obtain rfl : rows = [] := List.forall₂_nil_right_iff.1 ho
    rfl
  | cons doc docs =>
    obtain rfl : out = [numberDoc countColumn (doc :: docs).length] := hrun
    obtain ⟨row, tail, hrow, -, hrows⟩ := List.forall₂_cons_right_iff.1 ho
    have hfirst : Outcome.first? ⟨rows, affected⟩ = some row := congrArg List.head? hrows
    exact toNat_sizeOf hfirst ((hrow _).trans (if_pos rfl)) hdocs

/-- The pipeline of a count over one collection. -/
theorem pipeline_count {base : CollectionRef} {p : Plan} (hjoins : p.joins = [])
    (hgroups : p.groups = []) : Stage.pipeline base p [] =
      Stage.filtering base p.predicates ++ Stage.sorting base p.sorts ++ Stage.ofWindow p.window := by
  rw [Stage.pipeline, hjoins, hgroups]
  simp [Stage.shaping]

/-- **The size in the store.** What is counted are the documents in the window. -/
theorem toNat_sizeOf_run {store : Store} {base : CollectionRef} {p : Plan} (hjoins : p.joins = [])
    (hgroups : p.groups = []) {docs out : List Doc} {o : Outcome}
    (hrun : Runs store (Stage.pipeline base p [] ++ [.count countColumn]) docs out)
    (ho : o.Holds out) (hdocs : docs.length < 2 ^ 63) :
    (∀ v ∈ p.window, v.limit ≠ 0) ∧ (Session.sizeOf o).toNat = windowedSize p.window
      (docs.countP (store.passes (.conjunction (Filter.ofPredicates base p.predicates)))) := by
  rw [pipeline_count hjoins hgroups, runs_append] at hrun
  obtain ⟨taken, hrun, hcount⟩ := hrun
  obtain ⟨sorted, hrun, hwindow⟩ := runs_append.1 hrun
  obtain ⟨filtered, hfilter, hsort⟩ := runs_append.1 hrun
  obtain rfl := runs_filtering.1 hfilter
  obtain ⟨hlimit, rfl⟩ := runs_ofWindow.1 hwindow
  have hlength := (runs_sorting hsort).1.length_eq
  have htaken : (windowed p.window sorted).length = windowedSize p.window
      (docs.countP (store.passes (.conjunction (Filter.ofPredicates base p.predicates)))) := by
    rw [length_windowed, hlength, List.countP_eq_length_filter]
  have hbound : (windowed p.window sorted).length ≤ docs.length := by
    have hfiltered : sorted.length ≤ docs.length := hlength.trans_le (List.length_filter_le _ _)
    cases p.window with
    | none => exact hfiltered
    | some w =>
      rw [windowed, List.length_take, List.length_drop]
      omega
  refine ⟨hlimit, ?_⟩
  rw [← htaken]
  exact toNat_sizeOf_count (runs_singleton.1 hcount) ho (by omega)

/-- The store has an answer to a count, unless its window is for no rows. -/
theorem exists_runs_count {base : CollectionRef} {p : Plan} (hjoins : p.joins = [])
    (hgroups : p.groups = []) (hlimit : ∀ v ∈ p.window, v.limit ≠ 0) (store : Store)
    (docs : List Doc) :
    ∃ out, Runs store (Stage.pipeline base p [] ++ [.count countColumn]) docs out := by
  obtain ⟨sorted, hsort⟩ := exists_runs_sorting store base p.sorts
    (docs.filter (store.passes (.conjunction (Filter.ofPredicates base p.predicates))))
  have hpipeline : Runs store (Stage.pipeline base p []) docs (windowed p.window sorted) := by
    rw [pipeline_count hjoins hgroups]
    exact runs_append.2 ⟨_, runs_append.2 ⟨_, runs_filtering.2 rfl, hsort⟩,
      runs_ofWindow.2 ⟨hlimit, rfl⟩⟩
  exact ⟨_, runs_append.2 ⟨_, hpipeline, runs_singleton.2 rfl⟩⟩

end Document

/-! ## Both languages -/

/-- On these rows SQL and the store judge alike what the conditions of the
entries ask for, each in its own words. -/
def JudgeAlike (base : CollectionRef) (es : List Entry) (judges : Sql.Comparison → Document.Doc → Bool)
    (store : Document.Store) (rows : List Document.Doc) : Prop :=
  ∀ k ∈ (Entry.meaning es).leaves, ∀ t, k.Yields t → ∀ row ∈ rows,
    judges (.ofTest t) row = store.judges (.ofTest base t) row

/-- The two sizes of a count agree: without a window always, and with one if it
cuts off none of the rows or leaves none of them. -/
theorem windowedSize_eq_iff {w : Option Window} (hlimit : ∀ v ∈ w, v.limit ≠ 0) (n : ℕ) :
    Sql.windowedSize w n = Document.windowedSize w n ↔
      ∀ v ∈ w, (v.offset = 0 ∧ n ≤ v.limit.toNat) ∨ n ≤ v.offset.toNat := by
  cases w with
  | none => simp [Sql.windowedSize, Document.windowedSize]
  | some w =>
    have hpositive : w.limit.toNat ≠ 0 := fun h => hlimit w rfl (UInt64.toNat_inj.1 h)
    have hoffset : w.offset = 0 ↔ w.offset.toNat = 0 := UInt64.toNat_inj.symm
    simp only [Sql.windowedSize, Document.windowedSize, Option.mem_def, Option.some.injEq,
      forall_eq', hoffset]
    split <;> omega

/-- In both languages the same rows pass the filter. -/
theorem passes_eq_holds {base : CollectionRef} {es : List Entry} {ps : List Predicate}
    {judges : Sql.Comparison → Document.Doc → Bool} {store : Document.Store}
    {rows : List Document.Doc} (halike : JudgeAlike base es judges store rows)
    (hyields : List.Forall₂ Condition.Yields (Entry.meaning es).leaves (Predicate.tests ps))
    (hnamed : Document.Match.Nameable base (Predicate.tests ps)) :
    ∀ row ∈ rows, store.passes (.conjunction (Document.Filter.ofPredicates base ps)) row =
      (Sql.Counting.conditionOf ps).holds (judges · row) := by
  intro row hrow
  obtain ⟨m, hread, hmeans⟩ := Document.Match.read_conjunction hnamed
  rw [Document.Store.passes, hread]
  refine Formula.holds_congr ?_ fun ν => ?_
  · rw [hmeans.leaves_eq, Sql.Counting.leaves_conditionOf, List.map_map, List.map_map]
    refine List.map_congr_left fun t ht => ?_
    obtain ⟨k, hk, hkt⟩ : ∃ k ∈ (Entry.meaning es).leaves, k.Yields t := by
      obtain ⟨i, hi, rfl⟩ := List.getElem_of_mem ht
      have hlength := hyields.length_eq
      exact ⟨_, List.getElem_mem (by omega), hyields.get (by omega) hi⟩
    exact (halike k hk t hkt row hrow).symm
  · rw [hmeans.value_eq, Sql.Counting.value_conditionOf]

namespace Language

/-- **The size of a count in both languages.** The entries hold neither joins
nor group keys, on fields that the document store can name, and a dialect with
`LIMIT` and `OFFSET` and the document store both accept the count. Then the
text of the query is read as a count, the store has an answer unless the window
is for no rows, and on rows that both judge alike, of which `n` pass the filter:

* SQL finds the size `n`, or zero if the window skips rows;
* the store finds the number of the `n` rows that lie in the window;
* so the sizes agree without a window, and with one only if it cuts off none of
  the `n` rows or leaves none of them. -/
theorem count_sizes {d : Dialect} (hd : Sql.Known d.quotes) (hstyle : d.limitStyle = .limitOffset)
    {s : Search} {values : List Value} {q : Sql.Query} {c : Document.Command}
    (hjoins : (Entry.partsAll s.entries).joins = [])
    (hgroups : (Entry.partsAll s.entries).groups = [])
    (hfields : ∀ k ∈ (Entry.meaning s.entries).leaves,
      Document.Named (Document.path s.collection k.target.field))
    (hq : Sql.render d (.count s) values = .ok q)
    (hc : Document.render (.count s) values = .ok c) :
    ∃ counting stages w,
      Sql.Counting.read d.quotes q.text.toList q.params = some counting ∧
      c = .aggregate s.collection.name stages ∧
      w.toList = (Entry.partsAll s.entries).windows ∧
      ((∀ v ∈ w, v.limit ≠ 0) → ∀ store rows, ∃ out, Document.Runs store stages rows out) ∧
      ∀ (judges : Sql.Comparison → Document.Doc → Bool) (store : Document.Store)
        (rows out : List Document.Doc) (o : Outcome),
        JudgeAlike s.collection s.entries judges store rows → rows.length < 2 ^ 63 →
        Document.Runs store stages rows out → o.Holds out →
        ∃ n, n = rows.countP (fun row => counting.condition.holds (judges · row)) ∧
          (Session.sizeOf (.ofRows (counting.answer judges rows))).toNat = Sql.windowedSize w n ∧
          (Session.sizeOf o).toNat = Document.windowedSize w n ∧
          (Session.sizeOf (.ofRows (counting.answer judges rows)) = Session.sizeOf o ↔
            ∀ v ∈ w, (v.offset = 0 ∧ n ≤ v.limit.toNat) ∨ n ≤ v.offset.toNat) := by
  obtain ⟨f, hf, -⟩ := Run.outcome_map_eq_ok.1 hq
  obtain ⟨p, hp, -⟩ := Sql.Counting.count_eq_ok.1 hf
  obtain ⟨p', hp', hstages⟩ := Run.outcome_bind_eq_ok.1 hc
  -- from here on there is one plan, and each back end is compared with it
  obtain rfl : p = p' := Plan.eq_of_ofEntries hp hp'
  have hparts := Plan.hasParts_of_ofEntries hp
  have hplan : p.IsOf (Sql.rules d "count") s.entries values := .inl hp
  have hyields := hplan.alike.forall₂_leavesAll
  have hnamed := Document.Match.nameable_of_yields hyields hfields
  have hpjoins : p.joins = [] := hparts.joins.trans hjoins
  have hpgroups : p.groups = [] := hparts.groups.trans hgroups
  have hread := Sql.Counting.read_count hd hstyle hp hpjoins hpgroups hq
  refine ⟨_, _, p.window, hread, (Except.ok.inj hstages).symm, hparts.window,
    Document.exists_runs_count hpjoins hpgroups, ?_⟩
  intro judges store rows out o halike hrows hrun ho
  obtain ⟨hlimit, hstore⟩ := Document.toNat_sizeOf_run hpjoins hpgroups hrun ho hrows
  have hsame : rows.countP (store.passes (.conjunction
      (Document.Filter.ofPredicates s.collection p.predicates))) =
      rows.countP fun row => (Sql.Counting.conditionOf p.predicates).holds (judges · row) :=
    List.countP_congr fun row hrow => by rw [passes_eq_holds halike hyields hnamed row hrow]
  rw [hsame] at hstore
  have hsql := Sql.toNat_sizeOf_answer (c := Sql.Counting.ofPlan d s.collection p) judges rfl rfl
    hlimit hrows
  refine ⟨_, rfl, hsql, hstore, ?_⟩
  rw [← windowedSize_eq_iff hlimit, ← UInt64.toNat_inj, hstore]
  exact Eq.congr_left hsql

/-- SQL over integers, which knows one test as well. -/
def integerJudges (c : Sql.Comparison) (row : Document.Doc) : Bool :=
  match c.criterion with
  | .higher (.int n) => n.toInt < Document.integerOf (row (".".intercalate c.parts))
  | _ => false

/-- A person of an age. -/
def person (age : Int64) : Document.Doc := fun path => if path = "age" then some (.int age) else none

/-- Three persons, two of them adults. -/
def people : List Document.Doc := [person 20, person 10, person 30]

/-- A count of the adults that has room for five of them. -/
def adults : Search := ⟨⟨"shop", "users"⟩,
  [.condition ⟨.higher, ⟨.plain "age", none⟩, .literal (.int 18), none⟩,
    .orderBy ⟨⟨.plain "age", none⟩, .desc⟩,
    .limit ⟨5, 0⟩]⟩

/-- The pipeline of that count. -/
def adultsStages : List Document.Stage :=
  [.filter (.field "age" (.higher (.int 18))), .sort [("age", .desc)], .limit 5, .count countColumn]

/-- The store takes the two adults, brings the older one to the front and counts
them. -/
theorem runs_adultsStages : Document.Runs Document.integerStore adultsStages people
    [Document.numberDoc countColumn 2] := by
  have hsorted : Lexicographic Document.integerStore.byPath [("age", .desc)] (person 30) (person 20) := by
    simp [Lexicographic, Document.Store.byPath, Document.Store.before, Document.integerStore,
      Document.integerOf, person]
  exact ⟨[person 20, person 30], rfl, [person 30, person 20],
    ⟨.swap _ _ _, List.pairwise_pair.2 hsorted⟩, _, ⟨by decide, rfl⟩, _, rfl, rfl⟩

theorem judgeAlike_adults :
    JudgeAlike adults.collection adults.entries integerJudges Document.integerStore people := by
  intro k hk t hkt row _
  obtain rfl := List.mem_singleton.1 hk
  obtain ⟨target, criterion⟩ := t
  obtain ⟨rfl, hvalue⟩ := hkt
  cases criterion with
  | higher v =>
    obtain rfl : v = .int 18 := hvalue
    rfl
  | equals _ | like _ | lower _ | null | oneOf _ | between _ _ => exact hvalue.elim

theorem count_adults_sizes : ∃ q c counting stages out o,
    Sql.render .sqlite (.count adults) [] = .ok q ∧ Document.render (.count adults) [] = .ok c ∧
      q.text = "SELECT COUNT(*) AS \"size\" FROM \"users\"  WHERE \"age\">? ORDER BY \"age\" DESC" ++
        " LIMIT ? OFFSET ?" ∧
      Sql.Counting.read Dialect.sqlite.quotes q.text.toList q.params = some counting ∧
      c = .aggregate "users" stages ∧ Document.Runs Document.integerStore stages people out ∧
      o.Holds out ∧ Session.sizeOf o = 2 ∧
      Session.sizeOf (.ofRows (counting.answer integerJudges people)) = Session.sizeOf o := by
  have hfields : ∀ k ∈ (Entry.meaning adults.entries).leaves,
      Document.Named (Document.path adults.collection k.target.field) := by decide
  have hq : Sql.render .sqlite (.count adults) [] = .ok _ := rfl
  have hc : Document.render (.count adults) [] = .ok (.aggregate "users" adultsStages) := rfl
  obtain ⟨counting, stages, w, hread, hstages, hwindow, -, hsizes⟩ :=
    count_sizes (by decide) rfl rfl rfl hfields hq hc
  obtain rfl := (Document.Command.aggregate.inj hstages).2
  obtain ⟨n, hn, -, -, hagree⟩ := hsizes _ _ _ _ _ judgeAlike_adults (by decide) runs_adultsStages (holds_numberDoc 2)
  refine ⟨_, _, counting, _, _, _, hq, hc, by decide +kernel, hread, rfl, runs_adultsStages, holds_numberDoc 2, rfl, ?_⟩
  refine hagree.2 fun v hv => .inl ?_
  obtain rfl : v = ⟨5, 0⟩ := by
    rw [Option.mem_def.1 hv] at hwindow
    exact List.singleton_inj.1 hwindow
  have hle : n ≤ people.length := hn.trans_le List.countP_le_length
  exact ⟨rfl, hle.trans (by decide)⟩

/-- A count of everyone, with a window of two rows behind the first. -/
def nextTwo : Search := ⟨⟨"shop", "users"⟩, [.limit ⟨2, 1⟩]⟩

/-- **With an offset the sizes need not be the same.** SQL skips the only row it
has, with the number three, and finds the size zero; the store finds two of the
three documents in the window. -/
theorem count_nextTwo_sizes_ne : ∃ q counting stages out o,
    Sql.render .sqlite (.count nextTwo) [] = .ok q ∧
      Document.render (.count nextTwo) [] = .ok (.aggregate "users" stages) ∧
      q.text = "SELECT COUNT(*) AS \"size\" FROM \"users\"  LIMIT ? OFFSET ?" ∧
      Sql.Counting.read Dialect.sqlite.quotes q.text.toList q.params = some counting ∧
      JudgeAlike nextTwo.collection nextTwo.entries integerJudges Document.integerStore people ∧
      Document.Runs Document.integerStore stages people out ∧ o.Holds out ∧
      Session.sizeOf (.ofRows (counting.answer integerJudges people)) = 0 ∧
      Session.sizeOf o = 2 := by
  have hp : Plan.ofEntries (Sql.rules .sqlite "count") nextTwo.entries [] = .ok _ := rfl
  have hq : Sql.render .sqlite (.count nextTwo) [] = .ok _ := rfl
  have hread := Sql.Counting.read_count (by decide) rfl hp rfl rfl hq
  have halike : JudgeAlike nextTwo.collection nextTwo.entries integerJudges Document.integerStore
      people := fun _ hk => absurd hk List.not_mem_nil
  exact ⟨_, _, [.skip 1, .limit 2, .count countColumn], _, _, hq, rfl, by decide +kernel, hread,
    halike, ⟨_, rfl, _, ⟨by decide, rfl⟩, _, rfl, rfl⟩, holds_numberDoc 2, rfl, rfl⟩

end Language

end QueryLayer
