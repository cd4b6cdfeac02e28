import QueryLayer.Proofs.Sql.SearchCondition

/-!
# The filter means its entries

The text of a filter is read back as a search condition. What is read has more
brackets and fewer negations than the predicates it was written from, so it is
not the same formula, but it has the same value under every assignment to its
occurrences (`reading`, `value_reading`).

Every operand of a filter is a factor of the boolean grammar: whatever stands
behind it, reading takes its own tokens and no more (`Factor`). That is what
keeps a connector from regrouping its neighbours.
-/

namespace QueryLayer

namespace Sql

open Fragment SearchCondition

/-- The fragment is read as one factor, whatever stands behind it. -/
def Factor (g : Fragment) (f : Formula Comparison) : Prop :=
  ∀ (n : ℕ) (rest : List Token), 3 * (tokens g).length ≤ n →
    factor n (tokens g ++ rest) = some (f, rest)

/-! ## Connectors -/

theorem tokens_connector (kind : OperationKind) :
    (Piece.text (" " ++ kind.keyword ++ " ")).tokens = [.word kind.keyword] := by
  cases kind <;> rfl

/-- Operands with the word of a connector between each two. -/
theorem tokens_join_cons (kind : OperationKind) (g g' : Fragment) (gs : List Fragment)
    (rest : List Token) :
    tokens (Fragment.join (" " ++ kind.keyword ++ " ") (g :: g' :: gs)) ++ rest =
      tokens g ++ .word kind.keyword ::
        (tokens (Fragment.join (" " ++ kind.keyword ++ " ") (g' :: gs)) ++ rest) := by
  rw [join_cons_cons]
  simp only [tokens_append, tokens_cons, tokens_connector, List.append_assoc, List.cons_append,
    List.nil_append]

theorem length_tokens_join_cons (kind : OperationKind) (g g' : Fragment) (gs : List Fragment) :
    (tokens (Fragment.join (" " ++ kind.keyword ++ " ") (g :: g' :: gs))).length =
      (tokens g).length +
        ((tokens (Fragment.join (" " ++ kind.keyword ++ " ") (g' :: gs))).length + 1) := by
  have h := tokens_join_cons kind g g' gs []
  simp only [List.append_nil] at h
  rw [h, List.length_append, List.length_cons]

variable {gs : List Fragment} {fs : List (Formula Comparison)} {rest : List Token}

/-- Factors with `AND` between each two are read one by one. -/
theorem conjunction_join (hrest : dropWord "AND" rest = none) (h : List.Forall₂ Factor gs fs)
    (hgs : gs ≠ []) : ∀ n : ℕ,
      3 * (tokens (Fragment.join (" " ++ OperationKind.and.keyword ++ " ") gs)).length + 1 ≤ n →
      conjunction n
        (tokens (Fragment.join (" " ++ OperationKind.and.keyword ++ " ") gs) ++ rest) =
        some (fs, rest) := by
  induction h with
  | nil => exact absurd rfl hgs
  | cons hg hgs' ih =>
    intro n hn
    obtain ⟨n, rfl⟩ : ∃ m, n = m + 1 := ⟨n - 1, by omega⟩
    cases hgs' with
    | nil =>
      rw [join_singleton] at hn ⊢
      exact conjunction_last (hg n rest (by omega)) hrest
    | cons hg' hgs'' =>
      rw [length_tokens_join_cons] at hn
      rw [tokens_join_cons]
      exact conjunction_more (hg n _ (by omega)) (ih (by simp) n (by omega))

/-- Factors with `OR` between each two are read one by one, each as a
conjunction of itself. -/
theorem disjunction_join (hand : dropWord "AND" rest = none) (hor : dropWord "OR" rest = none)
    (h : List.Forall₂ Factor gs fs) (hgs : gs ≠ []) : ∀ n : ℕ,
      3 * (tokens (Fragment.join (" " ++ OperationKind.or.keyword ++ " ") gs)).length + 2 ≤ n →
      disjunction n
        (tokens (Fragment.join (" " ++ OperationKind.or.keyword ++ " ") gs) ++ rest) =
        some (fs.map fun f => .all [f], rest) := by
  induction h with
  | nil => exact absurd rfl hgs
  | cons hg hgs' ih =>
    intro n hn
    -- one call reads the conjunction and one more its only factor
    obtain ⟨n, rfl⟩ : ∃ m, n = m + 2 := ⟨n - 2, by omega⟩
    cases hgs' with
    | nil =>
      rw [join_singleton] at hn ⊢
      exact disjunction_last (conjunction_last (hg n rest (by omega)) hand) hor
    | cons hg' hgs'' =>
      rw [length_tokens_join_cons] at hn
      rw [tokens_join_cons]
      exact disjunction_more (conjunction_last (hg n _ (by omega)) rfl)
        (ih (by simp) (n + 1) (by omega))

/-! ## Brackets and negations -/

/-- What is read between the brackets of a connector. -/
def between (connector : OperationKind) (fs : List (Formula Comparison)) : Formula Comparison :=
  match connector with
  | .or => .any (fs.map fun f => .all [f])
  | _ => .any [.all fs]

theorem Factor.negation {g : Fragment} {f : Formula Comparison} (h : Factor g f)
    (negated : Bool) : Factor (negation negated ++ g) (.signed negated f) := by
  cases negated with
  | false => exact h
  | true =>
    intro n rest hn
    have hnot : (Piece.text "NOT ").tokens = [.word "NOT"] := rfl
    simp only [Sql.negation, if_true, tokens_cons, hnot, List.cons_append, List.nil_append,
      List.length_cons] at hn ⊢
    obtain ⟨n, rfl⟩ : ∃ m, n = m + 1 := ⟨n - 1, by omega⟩
    exact factor_not (h n rest (by omega))

/-- **Operands in brackets are one factor.** -/
theorem factor_bracket {connector : OperationKind} (hc : connector ≠ .not)
    (h : List.Forall₂ Factor gs fs) (hgs : gs ≠ []) (negated : Bool) :
    Factor (bracket negated connector gs) (.signed negated (between connector fs)) := by
  simp only [bracket, List.append_assoc]
  refine Factor.negation (fun n rest hn => ?_) negated
  have hopen : (Piece.text "(").tokens = [.mark '('] := rfl
  have hclose : (Piece.text ")").tokens = [.mark ')'] := rfl
  simp only [tokens_append, tokens_cons, tokens_nil, hopen, hclose, List.append_nil,
    List.append_assoc, List.cons_append, List.nil_append, List.length_cons, List.length_append,
    List.length_nil] at hn ⊢
  obtain ⟨n, rfl⟩ : ∃ m, n = m + 2 := ⟨n - 2, by omega⟩
  cases connector with
  | not => exact absurd rfl hc
  | or => exact factor_bracketed (disjunction_join rfl rfl h hgs (n + 1) (by omega))
  | and =>
    exact factor_bracketed (disjunction_last (conjunction_join rfl h hgs n (by omega)) rfl)

/-! ## Tests -/

/-- **A target and what it is compared with are one factor.** -/
theorem factor_comparison (t : Target) {g : Fragment} {negated : Bool} {k : Criterion}
    (hpoint : ∀ rest, dropMark '.' (tokens g ++ rest) = none)
    (hg : ∀ rest, SearchCondition.comparison (tokens g ++ rest) = some ((negated, k), rest)) :
    Factor (target t ++ g) (.signed negated (.leaf (.ofTest ⟨t, k⟩))) := by
  intro n rest hn
  obtain ⟨head, ts, hts, hnot, hopen⟩ := tokens_target t
  have hsubject := subject_target t (hpoint rest)
  rw [tokens_append, List.append_assoc] at *
  rw [hts] at hn hsubject ⊢
  rw [List.cons_append] at hn hsubject ⊢
  obtain ⟨n, rfl⟩ : ∃ m, n = m + 1 := ⟨n - 1, by simp at hn; omega⟩
  rw [factor_predicate hnot hopen, predicate, hsubject]
  simp [hg rest, Comparison.ofTest]

/-- A test is one factor, in which a negation stands before the test or, where
it is for null, inside. -/
theorem factor_test (negated : Bool) {t : Test} (ht : t.HasItems) :
    Factor (test negated t) (.signed negated (.leaf (.ofTest t))) := by
  obtain ⟨target, criterion⟩ := t
  -- most tests have their negation in front
  have hfront : ∀ (g : Fragment) (k : Criterion),
      (∀ rest, dropMark '.' (tokens g ++ rest) = none) →
      (∀ rest, SearchCondition.comparison (tokens g ++ rest) = some ((false, k), rest)) →
      Factor (negation negated ++ (Sql.target target ++ g))
        (.signed negated (.leaf (.ofTest ⟨target, k⟩))) := by
    intro g k hpoint hg
    have hpositive : Factor (Sql.target target ++ g) (.leaf (.ofTest ⟨target, k⟩)) :=
      factor_comparison target hpoint hg
    exact hpositive.negation negated
  cases criterion with
  | equals v =>
    simp only [test, Sql.comparison, List.append_assoc]
    exact hfront _ (.equals v) (fun _ => rfl) (fun _ => rfl)
  | like v =>
    simp only [test, Sql.comparison, List.append_assoc]
    exact hfront _ (.like v) (fun _ => rfl) (fun _ => rfl)
  | lower v =>
    simp only [test, Sql.comparison, List.append_assoc]
    exact hfront _ (.lower v) (fun _ => rfl) (fun _ => rfl)
  | higher v =>
    simp only [test, Sql.comparison, List.append_assoc]
    exact hfront _ (.higher v) (fun _ => rfl) (fun _ => rfl)
  | null =>
    simp only [test, List.append_assoc, List.singleton_append]
    cases negated with
    | false => exact factor_comparison target (fun _ => rfl) (fun _ => rfl)
    | true => exact factor_comparison target (fun _ => rfl) (fun _ => rfl)
  | oneOf vs =>
    have hin : (Piece.text " IN (").tokens = [.word "IN", .mark '('] := rfl
    have hclose : (Piece.text ")").tokens = [.mark ')'] := rfl
    simp only [test, List.append_assoc]
    refine hfront _ (.oneOf vs) (fun rest => ?_) (fun rest => ?_)
    · simp [hin, dropMark]
    · have hitems := items_itemSlots (ht vs rfl) rest
      simp [hin, hclose, SearchCondition.comparison, hitems]
  | between lower upper =>
    simp only [test, List.append_assoc]
    exact hfront _ (.between lower upper) (fun _ => rfl) (fun _ => rfl)

/-! ## Predicates -/

mutual

/-- What the operand of a predicate, negated or not, is read as. -/
def reading (negated : Bool) : Predicate → Formula Comparison
  | .test t => .signed negated (.leaf (.ofTest t))
  | .not p => reading (!negated) p
  | .all ps => .signed negated (between .and (readings ps))
  | .any ps => .signed negated (between .or (readings ps))

/-- What the operands of several predicates are read as. -/
def readings : List Predicate → List (Formula Comparison)
  | [] => []
  | p :: ps => reading false p :: readings ps

end

theorem operands_ne_nil (negated : Bool) (p : Predicate) : operands negated p ≠ [] := by
  cases p with
  | test t => simp [operands]
  | not p =>
    rw [operands]
    exact operands_ne_nil (!negated) p
  | all ps => simp [operands]
  | any ps => simp [operands]

/-- Predicates make operands. -/
theorem operandsAll_eq_nil_iff {negated : Bool} {ps : List Predicate} :
    operandsAll negated ps = [] ↔ ps = [] := by
  cases ps with
  | nil => simp [operandsAll]
  | cons p ps => simp [operandsAll, operands_ne_nil negated p]

mutual

/-- **The operand of a predicate is one factor.** -/
theorem factor_operands : ∀ (negated : Bool) (p : Predicate), p.formula.Full Test.HasItems →
    List.Forall₂ Factor (operands negated p) [reading negated p]
  | negated, .test t, h => .cons (factor_test negated h) .nil
  | negated, .not p, h => by
    rw [operands, reading]
    exact factor_operands (!negated) p h
  | negated, .all ps, h => by
    have hfs := factor_operandsAll ps h.2
    have hne : operandsAll false ps ≠ [] := by
      simpa [operandsAll_eq_nil_iff, Predicate.formulas_eq_map] using h.1
    rw [operands, reading]
    exact .cons (factor_bracket (by simp) hfs hne negated) .nil
  | negated, .any ps, h => by
    have hfs := factor_operandsAll ps h.2
    have hne : operandsAll false ps ≠ [] := by
      simpa [operandsAll_eq_nil_iff, Predicate.formulas_eq_map] using h.1
    rw [operands, reading]
    exact .cons (factor_bracket (by simp) hfs hne negated) .nil

/-- The same for several predicates. -/
theorem factor_operandsAll : ∀ ps : List Predicate,
    Formula.FullAll Test.HasItems (Predicate.formulas ps) →
      List.Forall₂ Factor (operandsAll false ps) (readings ps)
  | [], _ => .nil
  | p :: ps, h => by
    rw [operandsAll, readings]
    exact List.rel_append (factor_operands false p h.1) (factor_operandsAll ps h.2)

end

/-! ## What is read means the predicates -/

theorem leaves_between (connector : OperationKind) (fs : List (Formula Comparison)) :
    (between connector fs).leaves = Formula.leavesAll fs := by
  cases connector <;> simp [between, Formula.leaves, Formula.leavesAll, Formula.leavesAll_map_all]

mutual

/-- What is read compares what the tests compare, in order. -/
theorem leaves_reading : ∀ (negated : Bool) (p : Predicate),
    (reading negated p).leaves = p.formula.leaves.map Comparison.ofTest
  | negated, .test t => by simp [reading, Predicate.formula, Formula.leaves]
  | negated, .not p => by
    rw [reading, Predicate.formula, Formula.leaves]
    exact leaves_reading (!negated) p
  | negated, .all ps => by
    rw [reading, Formula.leaves_signed, leaves_between, Predicate.formula, Formula.leaves]
    exact leavesAll_readings ps
  | negated, .any ps => by
    rw [reading, Formula.leaves_signed, leaves_between, Predicate.formula, Formula.leaves]
    exact leavesAll_readings ps

/-- The same for several predicates. -/
theorem leavesAll_readings : ∀ ps : List Predicate,
    Formula.leavesAll (readings ps) = (Predicate.tests ps).map Comparison.ofTest
  | [] => rfl
  | p :: ps => by
    rw [readings, Predicate.tests, Predicate.formulas, Formula.leavesAll, Formula.leavesAll,
      List.map_append, leaves_reading false p, leavesAll_readings ps]
    rfl

end

mutual

/-- **What is read means the predicate**, or its negation. -/
theorem value_reading (ν : ℕ → Bool) : ∀ (k : ℕ) (negated : Bool) (p : Predicate),
    (reading negated p).value ν k = (negated ^^ p.formula.value ν k)
  | k, negated, .test t => by simp [reading, Predicate.formula, Formula.value]
  | k, negated, .not p => by
    rw [reading, Predicate.formula, Formula.value, value_reading ν k (!negated) p]
    cases negated <;> cases p.formula.value ν k <;> rfl
  | k, negated, .all ps => by
    rw [reading, Formula.value_signed, Predicate.formula, Formula.value,
      ← (values_readings ν k ps).1]
    simp [between, Formula.value, Formula.valueAny]
  | k, negated, .any ps => by
    rw [reading, Formula.value_signed, Predicate.formula, Formula.value,
      ← (values_readings ν k ps).2]
    simp [between, Formula.value, Formula.valueAny_map_all]

/-- The same for several predicates. -/
theorem values_readings (ν : ℕ → Bool) : ∀ (k : ℕ) (ps : List Predicate),
    Formula.valueAll ν k (readings ps) = Formula.valueAll ν k (Predicate.formulas ps) ∧
      Formula.valueAny ν k (readings ps) = Formula.valueAny ν k (Predicate.formulas ps)
  | _, [] => ⟨rfl, rfl⟩
  | k, p :: ps => by
    have hlength : (reading false p).leaves.length = p.formula.leaves.length := by
      rw [leaves_reading, List.length_map]
    have hhead : (reading false p).value ν k = p.formula.value ν k := by
      rw [value_reading ν k false p, Bool.false_xor]
    rw [readings, Predicate.formulas]
    exact Formula.values_cons hlength hhead (values_readings ν (k + p.formula.leaves.length) ps)

end

/-! ## The filter of a plan -/

/-- The condition of a filter is read, token by token. -/
theorem parse_operandsAll {ps : List Predicate} (hne : ps ≠ [])
    (hfull : Formula.FullAll Test.HasItems (Predicate.formulas ps)) :
    parse (tokens (Fragment.join (" " ++ OperationKind.and.keyword ++ " ")
      (operandsAll false ps))) = some (.any [.all (readings ps)]) := by
  have hfs := factor_operandsAll ps hfull
  have hos : operandsAll false ps ≠ [] := by simpa [operandsAll_eq_nil_iff] using hne
  have hnil : dropWord "AND" [] = none := rfl
  have hread := disjunction_last (conjunction_join hnil hfs hos _ le_rfl) rfl
  rw [List.append_nil] at hread
  rw [parse, hread]

theorem filter_nil : filter [] = [] := by simp [filter, operandsAll]

theorem filter_of_ne_nil {ps : List Predicate} (hne : ps ≠ []) :
    filter ps = .text " WHERE " ::
      Fragment.join (" " ++ OperationKind.and.keyword ++ " ") (operandsAll false ps) := by
  have hos : operandsAll false ps ≠ [] := by simpa [operandsAll_eq_nil_iff] using hne
  rw [filter]
  split
  · contradiction
  · rfl

/-- The formula that the condition of a filter is read as. -/
def filterReading (ps : List Predicate) : Formula Comparison := .any [.all (readings ps)]

theorem leaves_filterReading (ps : List Predicate) :
    (filterReading ps).leaves = (Predicate.tests ps).map Comparison.ofTest := by
  simp [filterReading, Formula.leaves, Formula.leavesAll, leavesAll_readings]

theorem value_filterReading (ν : ℕ → Bool) (ps : List Predicate) :
    (filterReading ps).value ν 0 = Formula.valueAll ν 0 (Predicate.formulas ps) := by
  simp [filterReading, Formula.value, Formula.valueAny, values_readings]

/-- The text of a filter is read with the values that are bound in it. -/
theorem read_filter {q : Text.Quotes} (hq : Known q) {ps : List Predicate} (hne : ps ≠ [])
    (hfull : Formula.FullAll Test.HasItems (Predicate.formulas ps)) :
    ∃ body, (filter ps).write q = " WHERE ".toList ++ body ∧
      SearchCondition.read q body (filter ps).bound = some (filterReading ps) := by
  have hlegible := legible_conjunction ps
  have hparse := parse_operandsAll hne hfull
  rw [filter_of_ne_nil hne]
  generalize Fragment.join (" " ++ OperationKind.and.keyword ++ " ") (operandsAll false ps) = f
    at hlegible hparse ⊢
  have hbound : bound (.text " WHERE " :: f) = bound f := rfl
  refine ⟨write q f, rfl, ?_⟩
  rw [SearchCondition.read, hbound, readTokens_write hq hlegible, Option.bind_some, hparse,
    filterReading]

/-- **The filter of a plan means the entries it was made from.** It is absent
exactly if they hold no condition. Otherwise it is the word `WHERE` and a
search condition, which compares what the conditions say, in their order, and
which has the value of the entries under every assignment to the occurrences of
their conditions. -/
theorem filter_means_entries {d : Dialect} (hd : d ∈ Dialect.builtin) {statement : String}
    {es : List Entry} {values : List Value} {p : Plan}
    (hp : p.IsOf (rules d statement) es values) :
    ((filter p.predicates).write d.quotes = [] ↔ Entry.anyPredicate es = false) ∧
      (Entry.anyPredicate es = true → ∃ body e,
        (filter p.predicates).write d.quotes = " WHERE ".toList ++ body ∧
        SearchCondition.read d.quotes body (filter p.predicates).bound = some e ∧
        e.leaves = (Predicate.tests p.predicates).map Comparison.ofTest ∧
        List.Forall₂ Condition.Yields (Entry.meaning es).leaves (Predicate.tests p.predicates) ∧
        ∀ ν, e.value ν 0 = (Entry.meaning es).value ν 0) := by
  have hnil := hp.predicates_eq_nil_iff
  by_cases hempty : p.predicates = []
  · have hnone := hnil.1 hempty
    refine ⟨?_, fun h => by simp [hnone] at h⟩
    rw [hempty, filter_nil, hnone]
    simp [Fragment.write]
  · obtain ⟨body, hwrite, hread⟩ := read_filter (known_of_builtin hd) hempty hp.full
    refine ⟨?_, fun _ => ⟨body, filterReading p.predicates, hwrite, hread,
      leaves_filterReading p.predicates, hp.alike.forall₂_leavesAll, fun ν => ?_⟩⟩
    · rw [hwrite, ← hnil]
      simp [hempty]
    · rw [value_filterReading, Entry.meaning, Formula.value, (hp.alike.values_eq ν 0).1]

/-- A negation of several operands, one of them a disjunction that holds a
negation and an empty group. -/
def negatedGroups : List Entry :=
  [.operation .not [
      .condition ⟨.equals, ⟨.plain "a", none⟩, .prepared, none⟩,
      .operation .or [
        .condition ⟨.null, ⟨.plain "b", none⟩, .prepared, none⟩,
        .operation .not [
          .condition ⟨.between, ⟨.plain "c", none⟩, .literal (.int 1), some .prepared⟩],
        .operation .and []]],
    .limit ⟨5, 0⟩]

theorem filter_of_negatedGroups_means_entries :
    ∃ p : Plan, p.IsOf (rules .mssql "find") negatedGroups [.int 7, .int 9] ∧
      String.ofList ((filter p.predicates).write Dialect.mssql.quotes) =
        " WHERE NOT [a]=? AND NOT ([b] IS NULL OR NOT [c] BETWEEN ? AND ?)" ∧
      ∃ body e, (filter p.predicates).write Dialect.mssql.quotes = " WHERE ".toList ++ body ∧
        SearchCondition.read Dialect.mssql.quotes body (filter p.predicates).bound = some e ∧
        ∀ ν, e.value ν 0 = (Entry.meaning negatedGroups).value ν 0 := by
  have hd : Dialect.mssql ∈ Dialect.builtin := by simp [Dialect.builtin]
  have hp : Plan.IsOf (rules .mssql "find") negatedGroups [.int 7, .int 9] _ := .inl rfl
  obtain ⟨body, e, hwrite, hread, -, -, hvalue⟩ := (filter_means_entries hd hp).2 rfl
  exact ⟨_, hp, rfl, body, e, hwrite, hread, hvalue⟩

end Sql

end QueryLayer
