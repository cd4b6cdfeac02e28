import QueryLayer.Proofs.Sql.Filter
import QueryLayer.Proofs.Sql.LegibleStatement
import QueryLayer.Row
import Mathlib.Algebra.Group.Nat.Defs

/-!
# The text of a count

A count over one table is read from its text and its bound values: the column
that holds the number, the table, the condition of its filter, its sort keys and
its window of rows (`Counting.read`). In a dialect that writes the window last,
what is read of a count is what its plan says (`read_count`).

The aggregation comes before the clauses that follow the filter: what a count
answers is one row with the number of rows that pass the filter, and of this row
the window takes its part (`Counting.answer`).
-/

namespace QueryLayer

namespace Sql

open Fragment SearchCondition

/-- A count, as it is read. -/
structure Counting where
  /-- The column with the number. -/
  column : String
  /-- The name of the table. -/
  table : List String
  /-- What a row must satisfy. -/
  condition : Formula Comparison
  /-- The sort keys. -/
  keys : List (Subject × SortOrder)
  /-- The most rows taken and the rows skipped before them. -/
  window : Option (ℕ × ℕ)

namespace Counting

/-! ## Reading the clauses -/

/-- The condition of a filter clause, if there is one. -/
def filterClause : List Token → Option (Formula Comparison × List Token)
  | .word "WHERE" :: ts => (disjunction (3 * ts.length + 2) ts).map fun (fs, rest) => (.any fs, rest)
  | ts => some (.all [], ts)

/-- A sort key. -/
def key (ts : List Token) : Option ((Subject × SortOrder) × List Token) :=
  (subject ts).bind fun (s, rest) =>
    match rest with
    | .word "ASC" :: rest => some ((s, .asc), rest)
    | .word "DESC" :: rest => some ((s, .desc), rest)
    | _ => none

/-- Sort keys with commas between them. -/
def sortKeys : ℕ → List Token → Option (List (Subject × SortOrder) × List Token)
  | 0, _ => none
  | n + 1, ts =>
    (key ts).bind fun (k, rest) =>
      match dropMark ',' rest with
      | some rest => (sortKeys n rest).map fun (ks, rest) => (k :: ks, rest)
      | none => some ([k], rest)

/-- The keys of a sort clause, if there is one. -/
def sortClause : List Token → Option (List (Subject × SortOrder) × List Token)
  | .word "ORDER" :: .word "BY" :: ts => sortKeys ts.length ts
  | ts => some ([], ts)

/-- A number of rows. -/
def rowNumber : Value → Option ℕ
  | .int n => if n < 0 then none else some n.toNatClampNeg
  | _ => none

/-- The window at the end, if there is one. -/
def windowClause : List Token → Option (Option (ℕ × ℕ))
  | [] => some none
  | [.word "LIMIT", .value limit, .word "OFFSET", .value offset] =>
    (rowNumber limit).bind fun l => (rowNumber offset).map fun o => some (l, o)
  | _ => none

/-- A whole count. -/
def parse : List Token → Option Counting
  | .word "SELECT" :: .word "COUNT" :: .mark '(' :: .mark '*' :: .mark ')' :: .word "AS" ::
      .name column :: .word "FROM" :: ts => do
    let (table, ts) ← path ts
    let (condition, ts) ← filterClause ts
    let (ks, ts) ← sortClause ts
    let w ← windowClause ts
    return ⟨column, table, condition, ks, w⟩
  | _ => none

/-- The count of a text with its bound values. -/
def read (q : Text.Quotes) (text : List Char) (params : List Value) : Option Counting :=
  (readTokens q text params).bind parse

/-! ## What a count answers -/

/-- Rows without those before a window and behind it. -/
def cut {α : Type} (w : Option (ℕ × ℕ)) (rows : List α) : List α :=
  match w with
  | none => rows
  | some (limit, offset) => (rows.drop offset).take limit

/-- The row with the number of rows that pass the filter, as far as it lies in
the window. There is one row, so its place does not hang on the sort keys. -/
def answer {ρ : Type} (c : Counting) (judges : Comparison → ρ → Bool) (rows : List ρ) : List Row :=
  let n := rows.countP fun row => c.condition.holds (judges · row)
  cut c.window [⟨[(c.column, .int (.ofNat n))]⟩]

/-! ## Where a clause ends

A clause is read up to the word that begins another one, or to the end. -/

/-- The tokens begin with one of these words, if there are any. -/
def Begins (ws : List String) (ts : List Token) : Prop := ∀ t ∈ ts.head?, ∃ w ∈ ws, t = .word w

section

variable {ws : List String} {ts : List Token} {w : String}

theorem begins_nil (ws : List String) : Begins ws [] := by simp [Begins]

theorem begins_word (hw : w ∈ ws) (ts : List Token) : Begins ws (.word w :: ts) := by
  simpa [Begins] using hw

theorem Begins.mono {ws' : List String} (h : Begins ws ts) (hws : ws ⊆ ws') : Begins ws' ts := by
  intro t ht
  obtain ⟨w, hw, rfl⟩ := h t ht
  exact ⟨w, hws hw, rfl⟩

theorem Begins.ne_word (h : Begins ws ts) (hw : w ∉ ws) (us : List Token) : ts ≠ .word w :: us := by
  rintro rfl
  obtain ⟨v, hv, heq⟩ := h (.word w) rfl
  cases heq
  exact hw hv

theorem Begins.dropWord (h : Begins ws ts) (hw : w ∉ ws) : dropWord w ts = none := by
  cases ts with
  | nil => rfl
  | cons t ts =>
    obtain ⟨v, hv, rfl⟩ := h t rfl
    have hne : v ≠ w := fun heq => hw (heq ▸ hv)
    exact if_neg hne

theorem Begins.dropMark (h : Begins ws ts) (c : Char) : dropMark c ts = none := by
  cases ts with
  | nil => rfl
  | cons t ts =>
    obtain ⟨v, hv, rfl⟩ := h t rfl
    rfl

end

/-! ## Reading what is written -/

/-- The condition that the filter of predicates is read as. -/
def conditionOf (ps : List Predicate) : Formula Comparison :=
  if ps.isEmpty then .all [] else filterReading ps

theorem leaves_conditionOf (ps : List Predicate) :
    (conditionOf ps).leaves = (Predicate.tests ps).map Comparison.ofTest := by
  cases ps with
  | nil => rfl
  | cons p ps => exact leaves_filterReading _

theorem value_conditionOf (ν : ℕ → Bool) (ps : List Predicate) :
    (conditionOf ps).value ν 0 = Formula.valueAll ν 0 (Predicate.formulas ps) := by
  cases ps with
  | nil => rfl
  | cons p ps => exact value_filterReading ν _

theorem filterClause_filter {ps : List Predicate} {rest : List Token}
    (hfull : Formula.FullAll Test.HasItems (Predicate.formulas ps))
    (hrest : Begins ["ORDER", "LIMIT"] rest) :
    filterClause (tokens (filter ps) ++ rest) = some (conditionOf ps, rest) := by
  cases ps with
  | nil =>
    rw [filter_nil, tokens_nil, List.nil_append, filterClause]
    · rfl
    · exact hrest.ne_word (by decide)
  | cons p ps =>
    have hwhere : (Piece.text " WHERE ").tokens = [.word "WHERE"] := rfl
    have hos : operandsAll false (p :: ps) ≠ [] := by simp [operandsAll_eq_nil_iff]
    have hfs := factor_operandsAll _ hfull
    rw [filter_of_ne_nil (by simp), tokens_cons, hwhere, List.append_assoc, List.singleton_append,
      filterClause]
    generalize htokens : tokens (Fragment.join (" " ++ OperationKind.and.keyword ++ " ")
      (operandsAll false (p :: ps))) ++ rest = ts
    have hfuel : 3 * (tokens (Fragment.join (" " ++ OperationKind.and.keyword ++ " ")
        (operandsAll false (p :: ps)))).length + 1 ≤ 3 * ts.length + 1 := by
      rw [← htokens, List.length_append]
      omega
    have hconjunction := conjunction_join (hrest.dropWord (by decide)) hfs hos _ hfuel
    rw [htokens] at hconjunction
    rw [disjunction_last hconjunction (hrest.dropWord (by decide))]
    rfl

/-- A sort key as it is read. -/
def keyOf (k : SortKey) : Subject × SortOrder :=
  ((k.target.aggregation, k.target.field.parts), k.order)

theorem tokens_order (o : SortOrder) : (Piece.text (" " ++ o.keyword)).tokens = [.word o.keyword] := by
  cases o <;> rfl

theorem key_sortKey (k : SortKey) (rest : List Token) :
    key (tokens (sortKey k) ++ rest) = some (keyOf k, rest) := by
  obtain ⟨t, o⟩ := k
  have hword : dropMark '.' (.word o.keyword :: rest) = none := rfl
  rw [sortKey, tokens_append, tokens_cons, tokens_order, tokens_nil, List.append_nil,
    List.append_assoc, List.singleton_append, key, subject_target t hword]
  cases o <;> rfl

/-- Sort keys are read one by one, in their order. -/
theorem sortKeys_join {rest : List Token} (hrest : dropMark ',' rest = none) : ∀ (ks : List SortKey)
    (n : ℕ), ks ≠ [] → ks.length ≤ n →
      sortKeys n (tokens (Fragment.join "," (ks.map sortKey)) ++ rest) = some (ks.map keyOf, rest)
  | [], _, hks, _ => absurd rfl hks
  | [k], 0, _, hn => by simp at hn
  | [k], n + 1, _, _ => by
    rw [List.map_singleton, join_singleton, sortKeys, key_sortKey, Option.bind_some]
    simp [hrest]
  | k :: k' :: ks, 0, _, hn => by simp at hn
  | k :: k' :: ks, n + 1, _, hn => by
    have hcomma : (Piece.text ",").tokens = [.mark ','] := rfl
    have htail := sortKeys_join hrest (k' :: ks) n (by simp) (by simpa using hn)
    rw [List.map_cons] at htail
    rw [List.map_cons, List.map_cons, join_cons_cons, tokens_append, tokens_cons, hcomma,
      List.append_assoc, List.append_assoc, List.singleton_append, sortKeys, key_sortKey,
      Option.bind_some]
    simp [dropMark, htail]

/-- Each sort key has a token. -/
theorem length_le_tokens_join : ∀ ks : List SortKey,
    ks.length ≤ (tokens (Fragment.join "," (ks.map sortKey))).length
  | [] => Nat.zero_le _
  | [k] => by simp [join_singleton, sortKey, tokens_order]
  | k :: k' :: ks => by
    have htail := length_le_tokens_join (k' :: ks)
    rw [List.map_cons] at htail
    rw [List.map_cons, List.map_cons, join_cons_cons, tokens_append, List.length_append,
      tokens_cons, List.length_append]
    have hcomma : (Piece.text ",").tokens.length = 1 := rfl
    simp only [List.length_cons] at htail ⊢
    omega

theorem sortClause_orderBy {d : Dialect} (hd : d.limitStyle = .limitOffset) (c : Clauses)
    {rest : List Token} (hrest : Begins ["LIMIT"] rest) :
    sortClause (tokens (orderBy d c) ++ rest) = some (c.sorts.map keyOf, rest) := by
  rw [orderBy]
  cases hsorts : c.sorts with
  | nil =>
    rw [hd]
    simp only [Bool.and_eq_true, beq_iff_eq, reduceCtorEq, and_false, if_false, tokens_nil,
      List.nil_append]
    rw [sortClause]
    · rfl
    · exact fun ts => hrest.ne_word (by decide) _
  | cons k ks =>
    have hword : (Piece.text " ORDER BY ").tokens = [.word "ORDER", .word "BY"] := rfl
    rw [tokens_cons, hword]
    simp only [List.cons_append, List.nil_append, sortClause]
    refine sortKeys_join (hrest.dropMark ',') _ _ (by simp) ?_
    have hlength := length_le_tokens_join (k :: ks)
    rw [List.length_append]
    omega

/-- A number of rows is read as itself, up to the largest integer. -/
theorem rowNumber_rowCount (n : UInt64) : rowNumber (rowCount n) = some (min n.toNat (2 ^ 63 - 1)) := by
  have hmax : Int64.maxValue.toInt = 2 ^ 63 - 1 := rfl
  have hmin : (min (n.toNat : ℤ) Int64.maxValue.toInt) = ((min n.toNat (2 ^ 63 - 1) : ℕ) : ℤ) := by
    rw [hmax]
    omega
  have hint : (Int64.ofInt ((min n.toNat (2 ^ 63 - 1) : ℕ) : ℤ)).toInt =
      ((min n.toNat (2 ^ 63 - 1) : ℕ) : ℤ) :=
    Int64.toInt_ofInt_of_le (by omega) (by omega)
  rw [rowCount, rowNumber, hmin]
  have hsign : ¬ Int64.ofInt ((min n.toNat (2 ^ 63 - 1) : ℕ) : ℤ) < 0 := by
    rw [Int64.lt_iff_toInt_lt, hint]
    simp
  rw [if_neg hsign, Int64.toNatClampNeg, hint, Int.toNat_natCast]

/-- The window as it is read. -/
def windowOf (w : Option Window) : Option (ℕ × ℕ) :=
  w.map fun w => (min w.limit.toNat (2 ^ 63 - 1), min w.offset.toNat (2 ^ 63 - 1))

/-- The tokens of a window that is written with `LIMIT` and `OFFSET`. -/
def windowTokens : Option Window → List Token
  | none => []
  | some w =>
    [.word "LIMIT", .value (rowCount w.limit), .word "OFFSET", .value (rowCount w.offset)]

theorem tokens_window {d : Dialect} (hd : d.limitStyle = .limitOffset) (w : Option Window) :
    tokens (Sql.window d w) = windowTokens w := by
  cases w with
  | none => rfl
  | some w =>
    rw [Sql.window, hd]
    rfl

theorem windowClause_windowTokens (w : Option Window) :
    windowClause (windowTokens w) = some (windowOf w) := by
  cases w with
  | none => rfl
  | some w =>
    rw [windowTokens, windowClause, rowNumber_rowCount, rowNumber_rowCount]
    rfl

theorem begins_windowTokens (w : Option Window) : Begins ["LIMIT"] (windowTokens w) := by
  cases w with
  | none => exact begins_nil _
  | some w => exact begins_word (by simp) _

theorem begins_orderBy {d : Dialect} (hd : d.limitStyle = .limitOffset) (c : Clauses)
    {rest : List Token} (hrest : Begins ["LIMIT"] rest) :
    Begins ["ORDER", "LIMIT"] (tokens (orderBy d c) ++ rest) := by
  rw [orderBy]
  cases c.sorts with
  | nil =>
    rw [hd]
    simpa using hrest.mono (by simp)
  | cons k ks =>
    have hword : (Piece.text " ORDER BY ").tokens = [.word "ORDER", .word "BY"] := rfl
    rw [tokens_cons, hword]
    exact begins_word (by simp) _

theorem begins_filter (ps : List Predicate) {rest : List Token}
    (hrest : Begins ["ORDER", "LIMIT"] rest) :
    Begins ["WHERE", "ORDER", "LIMIT"] (tokens (filter ps) ++ rest) := by
  cases ps with
  | nil =>
    rw [filter_nil, tokens_nil, List.nil_append]
    exact hrest.mono (by simp)
  | cons p ps =>
    have hword : (Piece.text " WHERE ").tokens = [.word "WHERE"] := rfl
    rw [filter_of_ne_nil (by simp), tokens_cons, hword]
    exact begins_word (by simp) _

/-- The parts of the name of a table. -/
def tableParts (d : Dialect) (c : CollectionRef) : List String :=
  match d.environment with
  | .server => [c.database, c.name]
  | .embedded => [c.name]

theorem path_table (d : Dialect) (c : CollectionRef) {rest : List Token}
    (h : dropMark '.' rest = none) : path (tokens (d.table c) ++ rest) = some (tableParts d c, rest) := by
  have hpoint : (Piece.text ".").tokens = [.mark '.'] := rfl
  rw [Dialect.table, tableParts]
  cases d.environment with
  | embedded =>
    rw [tokens_cons, tokens_name, tokens_nil, List.append_nil]
    exact path_cons _ h
  | server =>
    simp only [tokens_cons, tokens_name, hpoint, tokens_nil, List.append_nil, List.cons_append,
      List.nil_append]
    rw [path, if_pos rfl, path_cons _ h]
    rfl

/-- What a count is read as that is made of a plan. -/
def ofPlan (d : Dialect) (base : CollectionRef) (p : Plan) : Counting where
  column := countColumn
  table := tableParts d base
  condition := conditionOf p.predicates
  keys := p.sorts.map keyOf
  window := windowOf p.window

/-- A count is made of a plan of its entries. -/
theorem count_eq_ok {d : Dialect} {s : Search} {values : List Value} {f : Fragment} :
    count d s values = .ok f ↔ ∃ p, Plan.ofEntries (rules d "count") s.entries values = .ok p ∧
      f = [.text "SELECT COUNT(*) AS ", .name countColumn, .text " FROM "] ++
        d.table s.collection ++ [.text " "] ++ clauses d p := by
  rw [count, Run.outcome_bind_eq_ok]
  refine exists_congr fun p => and_congr_right fun _ => ?_
  exact ⟨fun h => (Except.ok.inj h).symm, fun h => h ▸ rfl⟩

/-- **A count over one table is read as its plan says.** -/
theorem read_count {d : Dialect} (hq : Known d.quotes) (hd : d.limitStyle = .limitOffset)
    {s : Search} {values : List Value} {p : Plan} {q : Query}
    (hp : Plan.ofEntries (rules d "count") s.entries values = .ok p)
    (hjoins : p.joins = []) (hgroups : p.groups = [])
    (h : render d (.count s) values = .ok q) :
    read d.quotes q.text.toList q.params = some (ofPlan d s.collection p) := by
  obtain ⟨f, hf, rfl⟩ := Run.outcome_map_eq_ok.1 h
  obtain ⟨p', hp', hfragment⟩ := count_eq_ok.1 hf
  obtain rfl : p = p' := Except.ok.inj (hp.symm.trans hp')
  have hfull := Plan.IsOf.full (r := rules d "count") (.inl hp)
  -- the clauses behind the table, and where each of them ends
  have hwindow := begins_windowTokens p.window
  have horder := begins_orderBy hd p.toClauses hwindow
  have hfilter := begins_filter p.predicates horder
  have hclauses : tokens (clauses d p) = tokens (filter p.predicates) ++
      (tokens (orderBy d p.toClauses) ++ windowTokens p.window) := by
    have hnone : joins d [] = [] ∧ groupBy [] = [] := ⟨rfl, rfl⟩
    rw [clauses, hjoins, hgroups, hnone.1, hnone.2]
    simp only [tokens_append, tokens_window hd, List.append_assoc, List.nil_append]
  have hhead : (Piece.text "SELECT COUNT(*) AS ").tokens =
      [.word "SELECT", .word "COUNT", .mark '(', .mark '*', .mark ')', .word "AS"] := rfl
  have hfrom : (Piece.text " FROM ").tokens = [.word "FROM"] := rfl
  have hblank : (Piece.text " ").tokens = [] := rfl
  have htokens : tokens f = .word "SELECT" :: .word "COUNT" :: .mark '(' :: .mark '*' ::
      .mark ')' :: .word "AS" :: .name countColumn :: .word "FROM" ::
        (tokens (d.table s.collection) ++ (tokens (filter p.predicates) ++
          (tokens (orderBy d p.toClauses) ++ windowTokens p.window))) := by
    rw [hfragment]
    simp only [tokens_append, tokens_cons, hhead, tokens_name, hfrom, hblank, hclauses,
      List.append_assoc, List.cons_append, List.nil_append]
  have hread : readTokens d.quotes (f.write d.quotes) f.bound = some (tokens f) :=
    readTokens_write hq (legible_count hf)
  have htext : (single d f).text.toList = f.write d.quotes := String.toList_ofList
  rw [read, htext]
  change (readTokens d.quotes (f.write d.quotes) f.bound).bind parse = _
  rw [hread, Option.bind_some, htokens]
  simp only [parse, path_table d _ (hfilter.dropMark '.'), filterClause_filter hfull horder,
    sortClause_orderBy hd _ hwindow, windowClause_windowTokens, Option.bind_eq_bind,
    Option.bind_some]
  rfl

end Counting

end Sql

end QueryLayer
