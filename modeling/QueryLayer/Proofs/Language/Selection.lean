import QueryLayer.Proofs.Document.Demand
import QueryLayer.Proofs.Language.Prepared
import QueryLayer.Proofs.Sql.Filter
import QueryLayer.Proofs.Sql.Valueless
import QueryLayer.Proofs.Walk.Agreement
import QueryLayer.Proofs.Walk.Success

/-!
# Two back ends, one selection

SQL pushes a negation down to the tests and flattens it into the operator
around it; the document store writes it around each filter it holds. Yet a find
selects by one boolean function in both (`find_selects_alike`): both back ends
make the same plan of it, and what each of them writes is read back as a
formula with the value of the predicates of that plan. So no argument about one
back end looks at the other.
-/

namespace QueryLayer

/-! ## The filter of a find in SQL -/

namespace Sql

/-- A select up to its clauses. -/
def selectHead (d : Dialect) (s : Find) : Fragment :=
  .text "SELECT " :: (projections s.projection ++ [.text " FROM "] ++ d.table s.collection ++
    [.text " "])

/-- The columns and the table of a select bind nothing. -/
theorem bound_selectHead (d : Dialect) (s : Find) : (selectHead d s).bound = [] := by
  simp [Fragment.bound_eq_slots, selectHead]

/-- A select is made of a plan of its entries. -/
theorem select_eq_ok {d : Dialect} {s : Find} {values : List Value} {f : Fragment} :
    select d s values = .ok f ↔ ∃ p, Plan.ofEntries (rules d "find") s.entries values = .ok p ∧
      f = selectHead d s ++ clauses d p := by
  rw [select, Run.outcome_bind_eq_ok]
  refine exists_congr fun p => and_congr_right fun _ => ?_
  simp [selectHead, pure, Except.pure, eq_comm]

/-- A plan with predicates alone has its filter for a clause, and no other. -/
theorem clauses_of_none (d : Dialect) {p : Plan} (h : p.toClauses = .none) :
    clauses d p = filter p.predicates := by
  obtain ⟨c, ps⟩ := p
  obtain rfl : c = .none := h
  have hjoins : joins d [] = [] := rfl
  have horder : orderBy d .none = [] := rfl
  change joins d [] ++ filter ps ++ [] ++ orderBy d .none ++ [] = filter ps
  rw [hjoins, horder, List.nil_append, List.append_nil, List.append_nil, List.append_nil]

namespace SearchCondition

/-- The condition of a filter clause. Without a clause nothing is asked for,
and a clause is the word `WHERE` and a search condition. -/
def readClause (q : Text.Quotes) (text : List Char) (params : List Value) :
    Option (Formula Comparison) :=
  if text.isEmpty then some (.all [])
  else if " WHERE ".toList.isPrefixOf text then read q (text.drop " WHERE ".toList.length) params
  else none

theorem readClause_where (q : Text.Quotes) (body : List Char) (params : List Value) :
    readClause q (" WHERE ".toList ++ body) params = read q body params := by
  have hsome : (" WHERE ".toList ++ body).isEmpty = false := rfl
  have hwhere : " WHERE ".toList.isPrefixOf (" WHERE ".toList ++ body) = true := by
    rw [List.isPrefixOf_iff_prefix]
    exact List.prefix_append _ _
  rw [readClause, hsome, hwhere, List.drop_left]
  rfl

/-- **The filter clause of a plan asks for its predicates.** -/
theorem readClause_filter {q : Text.Quotes} (hq : Known q) {ps : List Predicate}
    (hfull : Formula.FullAll Test.HasItems (Predicate.formulas ps)) :
    ∃ e, readClause q ((filter ps).write q) (filter ps).bound = some e ∧
      e.leaves = (Predicate.tests ps).map Comparison.ofTest ∧
      ∀ ν, e.value ν 0 = Formula.valueAll ν 0 (Predicate.formulas ps) := by
  by_cases hne : ps = []
  · subst hne
    rw [filter_nil]
    exact ⟨.all [], rfl, rfl, fun _ => rfl⟩
  · obtain ⟨body, hwrite, hread⟩ := read_filter hq hne hfull
    refine ⟨filterReading ps, ?_, leaves_filterReading ps, fun ν => value_filterReading ν ps⟩
    rw [hwrite, readClause_where, hread]

end SearchCondition

end Sql

/-! ## Both back ends -/

/-- The tests of a plan look at the fields that its entries name. -/
theorem Document.Match.nameable_of_yields {base : CollectionRef} {cs : List Condition}
    {ts : List Test} (h : List.Forall₂ Condition.Yields cs ts)
    (hcs : ∀ c ∈ cs, Named (path base c.target.field)) : Nameable base ts := by
  induction h with
  | nil => simp [Nameable]
  | @cons c t cs ts hyields _ ih =>
    rw [List.forall_mem_cons] at hcs
    rw [Nameable, List.forall_mem_cons, hyields.1]
    exact ⟨hcs.1, ih hcs.2⟩

/-- The tests of a plan are those that the store accepts for the conditions with
their values. -/
theorem Document.forall₂_admits {es : List Entry} {values : List Value} {p : Plan}
    (h : Plan.ofEntries rules es values = .ok p) : List.Forall₂ rules.Admits
      (Entry.meaning (Entry.fillAll values es)).leaves (Predicate.tests p.predicates) := by
  obtain ⟨-, -, halike, -⟩ := (Plan.ofEntries_eq_ok blind_rules).1 h
  exact halike.forall₂_leavesAll

namespace Language

/-- **A find selects by one boolean function in both back ends.** Its entries
hold conditions only, on fields that the document store can name, and both back
ends accept it. Then the text of the select ends with a filter clause, and the
filter of the pipeline is a filter of the store. Both ask for the same tests, which
are the conditions with the values of their markers, in their order: the clause
compares the names of each field with the values of its test, and an object of the
filter asks the same of what is held for the field. Under every assignment of truth
values to the occurrences of the conditions, the clause and the filter have the same
value. -/
theorem find_selects_alike {d : Dialect} (hd : d ∈ Dialect.builtin) {s : Find}
    {values : List Value} {q : Sql.Query} {c : Document.Command}
    (hclauses : Entry.anyClause s.entries = false)
    (hfields : ∀ k ∈ (Entry.meaning s.entries).leaves, ∀ path,
      Document.HeldAt s.collection k.target.field path → Document.Named path)
    (hq : Sql.render d (.find s) values = .ok q)
    (hc : Document.render (.find s) values = .ok c) :
    ∃ clause stages e m tests,
      q.text = String.ofList ((Sql.selectHead d s).write d.quotes ++ clause) ∧
      c = .aggregate s.collection.name stages ∧
      Sql.SearchCondition.readClause d.quotes clause q.params = some e ∧
      Document.Match.readPipeline (stages.map Document.Stage.toJson) = some m ∧
      List.Forall₂ Condition.Yields (Entry.meaning (Entry.fillAll values s.entries)).leaves tests ∧
      e.leaves = tests.map Sql.Comparison.ofTest ∧
      List.Forall₂ (Document.FieldTest.Asks s.collection) tests m.leaves ∧
      ∀ ν, e.value ν 0 = m.value ν 0 := by
  obtain ⟨f, hf, rfl⟩ := Run.outcome_map_eq_ok.1 hq
  obtain ⟨p, hp, rfl⟩ := Sql.select_eq_ok.1 hf
  obtain ⟨p', hp', hstages⟩ := Run.outcome_bind_eq_ok.1 hc
  -- from here on there is one plan, and each back end is compared with it
  obtain rfl : p = p' := Plan.eq_of_ofEntries hp hp'
  have hplan : p.IsOf (Sql.rules d "find") s.entries values := .inl hp
  have hnameable : Document.Match.Nameable s.collection (Predicate.tests p.predicates) :=
    Document.Match.nameable_of_yields hplan.alike.forall₂_leavesAll fun k hk =>
      hfields k hk _ (Document.heldAt_path _ _)
  obtain ⟨e, hread, hleaves, hvalue⟩ :=
    Sql.SearchCondition.readClause_filter (Sql.known_of_builtin hd) hplan.full
  obtain ⟨m, hmatch, hmeans⟩ := Document.Match.read_pipeline hnameable s.projection
  have hadmits := Document.forall₂_admits hp'
  have hasks : List.Forall₂ (Document.FieldTest.Asks s.collection) (Predicate.tests p.predicates)
      m.leaves := by
    rw [hmeans.leaves_eq, List.forall₂_map_right_iff, List.forall₂_same]
    exact ((List.forall₂_and_left _ _).1 (hadmits.flip.imp fun t k hk =>
      ⟨Document.FieldTest.asks_of_admits hk, hk⟩)).1
  rw [Sql.clauses_of_none d (Plan.clauses_of_ofEntries hclauses hp)]
  refine ⟨(Sql.filter p.predicates).write d.quotes, _, e, m, Predicate.tests p.predicates, ?_,
    (Except.ok.inj hstages).symm, ?_, hmatch, hadmits.imp fun _ _ h => h.2.1, hleaves, hasks,
    fun ν => ?_⟩
  · rw [Sql.Query.text, Sql.single, Sql.Fragment.write_append]
  · rw [Sql.Query.params, Sql.single, Sql.Fragment.bound_append, Sql.bound_selectHead,
      List.nil_append, hread]
  · rw [hvalue, hmeans.value_eq]

/-- A disjunction that holds a negation of two operands, one of them a negation
again and the other for null, beside a pattern and a test for the items of a list. -/
def nestedNegations : Find where
  collection := ⟨"shop", "items"⟩
  entries := [
    .operation .or [
      .condition ⟨.equals, ⟨.plain "a", none⟩, .prepared, none⟩,
      .operation .not [
        .condition ⟨.null, ⟨.plain "b", none⟩, .prepared, none⟩,
        .operation .not [
          .condition ⟨.between, ⟨.plain "c", none⟩, .literal (.int 1), some .prepared⟩],
        .operation .and []]],
    .condition ⟨.like, ⟨⟨none, some "items", "e"⟩, none⟩, .prepared, none⟩,
    .condition ⟨.oneOf, ⟨⟨none, some "parts", "d"⟩, none⟩, .prepared, none⟩]
  projection := []

theorem find_nestedNegations_selects_alike :
    let values : List Value := [.int 7, .int 9, .text "5_\\%", .list [.int 3]]
    ∃ q c, Sql.render .mssql (.find nestedNegations) values = .ok q ∧
      Document.render (.find nestedNegations) values = .ok c ∧
      q.text = "SELECT * FROM [shop].[items]  WHERE " ++
        "([a]=? OR [b] IS NOT NULL OR [c] BETWEEN ? AND ?) AND [items].[e] LIKE ? AND " ++
        "[parts].[d] IN (?)" ∧
      ∃ clause stages e m,
        q.text = String.ofList ((Sql.selectHead .mssql nestedNegations).write
          Dialect.mssql.quotes ++ clause) ∧
        c = .aggregate "items" stages ∧
        Sql.SearchCondition.readClause Dialect.mssql.quotes clause q.params = some e ∧
        Document.Match.readPipeline (stages.map Document.Stage.toJson) = some m ∧
        e.leaves = [⟨none, ["a"], .equals (.int 7)⟩, ⟨none, ["b"], .null⟩,
          ⟨none, ["c"], .between (.int 1) (.int 9)⟩, ⟨none, ["items", "e"], .like (.text "5_\\%")⟩,
          ⟨none, ["parts", "d"], .oneOf [.int 3]⟩] ∧
        m.leaves.map (·.path) = ["a", "b", "c", "e", "parts.d"] ∧
        m.leaves.map (fun f => Document.readDemand f.criterion) = [
          some (.equal (.int 7)), some (.equal .null), some (.between (.int 1) (.int 9)),
          some (.matching [.start, .once (.char '5'), .once .dot, .once (.char '%'), .final]),
          some (.oneOf [.int 3])] ∧
        ∀ ν, e.value ν 0 = m.value ν 0 := by
  intro values
  have hd : Dialect.mssql ∈ Dialect.builtin := by simp [Dialect.builtin]
  have hfields : ∀ k ∈ (Entry.meaning nestedNegations.entries).leaves, ∀ path,
      Document.HeldAt nestedNegations.collection k.target.field path → Document.Named path := by
    simp only [Document.heldAt_iff, forall_eq]
    decide
  have hq : Sql.render .mssql (.find nestedNegations) values = .ok _ := rfl
  have hc : Document.render (.find nestedNegations) values = .ok _ := rfl
  obtain ⟨clause, stages, e, m, tests, htext, hstages, he, hm, htests, hleaves, hasks, hvalue⟩ :=
    find_selects_alike hd rfl hfields hq hc
  have hfilled : (Entry.meaning (Entry.fillAll values nestedNegations.entries)).leaves = [
      ⟨.equals, ⟨.plain "a", none⟩, .literal (.int 7), none⟩,
      ⟨.null, ⟨.plain "b", none⟩, .prepared, none⟩,
      ⟨.between, ⟨.plain "c", none⟩, .literal (.int 1), some (.literal (.int 9))⟩,
      ⟨.like, ⟨⟨none, some "items", "e"⟩, none⟩, .literal (.text "5_\\%"), none⟩,
      ⟨.oneOf, ⟨⟨none, some "parts", "d"⟩, none⟩, .literal (.list [.int 3]), none⟩] := rfl
  have hyields : List.Forall₂ Condition.Yields
      (Entry.meaning (Entry.fillAll values nestedNegations.entries)).leaves [
        ⟨⟨.plain "a", none⟩, .equals (.int 7)⟩, ⟨⟨.plain "b", none⟩, .null⟩,
        ⟨⟨.plain "c", none⟩, .between (.int 1) (.int 9)⟩,
        ⟨⟨⟨none, some "items", "e"⟩, none⟩, .like (.text "5_\\%")⟩,
        ⟨⟨⟨none, some "parts", "d"⟩, none⟩, .oneOf [.int 3]⟩] := by
    rw [hfilled]
    simp [Condition.Yields, Operand.Gives, Value.toItems]
  obtain rfl := Condition.Yields.unique_all (by rw [hfilled]; decide) htests hyields
  -- the filter of the store is evaluated
  injection hstages with _ hstages
  subst hstages
  obtain rfl := Option.some.inj (hm.symm.trans (by rfl))
  exact ⟨_, _, hq, hc, by decide +kernel, clause, _, e, _, htext, rfl, he, hm, hleaves, rfl, rfl,
    hvalue⟩

end Language

end QueryLayer
