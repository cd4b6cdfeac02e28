import QueryLayer.Proofs.Sql.LegibleStatement
import QueryLayer.Proofs.Walk.Parts

/-!
# The words of a search

What a search writes beside names and placeholders is taken from two short lists:
the words that begin a join, and all others (`texts_select_subset`). A fact about
the text of searches that depends on the words alone is then a fact about the
lists.
-/

namespace QueryLayer

namespace Sql

/-- The words and marks of a search, and of the changes that filter like one. -/
def searchTexts : List String :=
  [".", ",", "(", ")", "*", " ", "=", "<", ">", "+", "-", "/", "COUNT(", "SUM(", "AVG(", "MIN(",
    "MAX(", "NOT ", "NULL", " LIKE ", " IS ", " IN (", " BETWEEN ", " AND ", " OR ", " WHERE ",
    " ON ", " GROUP BY ", " ASC", " DESC", " ORDER BY ", " ORDER BY (SELECT NULL)", " LIMIT ",
    " OFFSET ", " ROWS FETCH NEXT ", " ROWS ONLY", "SELECT ", " FROM ", " AS ", "UPDATE ", " SET ",
    "DELETE FROM ", "SELECT COUNT(*) AS "]

/-- The words that begin a join. -/
def joinTexts : List String := JoinType.all.map fun t => t.keyword ++ " JOIN "

namespace Piece

/-- The words and marks of a piece. -/
def text? : Piece → Option String
  | .text s => some s
  | _ => none

end Piece

namespace Fragment

variable {words : List String}

/-- The words and marks of a fragment. -/
def texts (f : Fragment) : List String := f.filterMap Piece.text?

@[simp] theorem texts_nil : texts [] = [] := rfl

theorem piecewise_texts : Piecewise texts := piecewise_filterMap Piece.text?

@[simp] theorem texts_append (f g : Fragment) : texts (f ++ g) = texts f ++ texts g :=
  piecewise_texts.append f g

@[simp] theorem texts_text_cons (s : String) (f : Fragment) : texts (.text s :: f) = s :: texts f :=
  rfl

@[simp] theorem texts_slot_cons (s : Slot) (v : Value) (f : Fragment) :
    texts (.slot s v :: f) = texts f := rfl

theorem mem_texts {s : String} {f : Fragment} : s ∈ texts f ↔ .text s ∈ f := by
  rw [texts, List.mem_filterMap]
  constructor
  · rintro ⟨p, hp, hs⟩
    cases p with
    | text t => exact Option.some.inj hs ▸ hp
    | name n | literal content | slot s v => cases hs
  · exact fun h => ⟨_, h, rfl⟩

/-- Between fragments stands their mark. -/
theorem texts_join_subset {mark : String} (hmark : mark ∈ words) {fs : List Fragment}
    (h : ∀ f ∈ fs, texts f ⊆ words) : texts (join mark fs) ⊆ words :=
  piecewise_texts.join_subset (List.cons_subset.2 ⟨hmark, List.nil_subset words⟩) h

end Fragment

open Fragment

variable {d : Dialect} {values : List Value}

/-! ## Fields and tables -/

theorem texts_fieldName_subset (f : FieldRef) : texts (fieldName f) ⊆ searchTexts := by
  refine texts_join_subset (by decide) fun g hg => ?_
  obtain ⟨part, -, rfl⟩ := List.mem_map.1 hg
  exact List.nil_subset _

theorem texts_target_subset (t : Target) : texts (target t) ⊆ searchTexts := by
  obtain ⟨field, aggregation⟩ := t
  cases aggregation with
  | none => exact texts_fieldName_subset field
  | some a =>
    have hopen : a.keyword ++ "(" ∈ searchTexts := by cases a <;> decide
    have hclose : [")"] ⊆ searchTexts := by decide
    simp only [target, texts_text_cons, texts_append, List.cons_subset, List.append_subset]
    exact ⟨hopen, texts_fieldName_subset field, List.cons_subset.1 hclose⟩

theorem texts_table_subset (d : Dialect) (c : CollectionRef) : texts (d.table c) ⊆ searchTexts := by
  unfold Dialect.table
  cases d.environment with
  | embedded => exact List.nil_subset _
  | server =>
    change ["."] ⊆ searchTexts
    decide

/-! ## The filter -/

theorem texts_negation_subset (negated : Bool) : texts (negation negated) ⊆ searchTexts := by
  cases negated <;> decide

theorem texts_itemSlots_subset (vs : List Value) : texts (itemSlots vs) ⊆ searchTexts := by
  refine texts_join_subset (by decide) fun f hf => ?_
  obtain ⟨i, hi, rfl⟩ := List.mem_mapIdx.1 hf
  exact List.nil_subset _

theorem texts_comparison_subset (negated : Bool) (t : Target) {symbol : String}
    (hs : symbol ∈ searchTexts) (v : Value) :
    texts (comparison negated t symbol v) ⊆ searchTexts := by
  simp only [comparison, texts_append, texts_text_cons, texts_slot_cons, texts_nil,
    List.append_subset, List.cons_subset]
  exact ⟨⟨texts_negation_subset negated, texts_target_subset t⟩, hs, List.nil_subset _⟩

theorem texts_test_subset (negated : Bool) (t : Test) : texts (test negated t) ⊆ searchTexts := by
  obtain ⟨t, criterion⟩ := t
  have htarget := texts_target_subset t
  have hnegation := texts_negation_subset negated
  cases criterion with
  | equals v | like v | lower v | higher v =>
    exact texts_comparison_subset negated t (by decide) v
  | null =>
    have his : [" IS "] ⊆ searchTexts := by decide
    have hnull : ["NULL"] ⊆ searchTexts := by decide
    simp only [test, texts_append, texts_text_cons, texts_nil, List.append_subset]
    exact ⟨⟨⟨htarget, his⟩, hnegation⟩, hnull⟩
  | oneOf vs =>
    have hin : [" IN ("] ⊆ searchTexts := by decide
    have hclose : [")"] ⊆ searchTexts := by decide
    simp only [test, texts_append, texts_text_cons, texts_nil, List.append_subset]
    exact ⟨⟨⟨⟨hnegation, htarget⟩, hin⟩, texts_itemSlots_subset vs⟩, hclose⟩
  | between lower upper =>
    have hbounds : [" BETWEEN ", " AND "] ⊆ searchTexts := by decide
    simp only [test, texts_append, texts_text_cons, texts_slot_cons, texts_nil, List.append_subset]
    exact ⟨⟨hnegation, htarget⟩, hbounds⟩

theorem texts_bracket_subset (negated : Bool) {connector : OperationKind} {fs : List Fragment}
    (hconnector : " " ++ connector.keyword ++ " " ∈ searchTexts)
    (hfs : ∀ f ∈ fs, texts f ⊆ searchTexts) :
    texts (bracket negated connector fs) ⊆ searchTexts := by
  have hopen : ["("] ⊆ searchTexts := by decide
  have hclose : [")"] ⊆ searchTexts := by decide
  simp only [bracket, texts_append, texts_text_cons, texts_nil, List.append_subset]
  exact ⟨⟨⟨texts_negation_subset negated, hopen⟩, texts_join_subset hconnector hfs⟩, hclose⟩

mutual

/-- Brackets add their own words and those of their operator. -/
theorem texts_operands_subset : ∀ (negated : Bool) (p : Predicate),
    ∀ f ∈ operands negated p, texts f ⊆ searchTexts
  | negated, .test t, f, hf => by
    obtain rfl : f = test negated t := by simpa [operands] using hf
    exact texts_test_subset negated t
  | negated, .not p, f, hf => by
    rw [operands] at hf
    exact texts_operands_subset (!negated) p f hf
  | negated, .all ps, f, hf => by
    obtain rfl : f = bracket negated .and (operandsAll false ps) := by simpa [operands] using hf
    exact texts_bracket_subset negated (by decide) (texts_operandsAll_subset false ps)
  | negated, .any ps, f, hf => by
    obtain rfl : f = bracket negated .or (operandsAll false ps) := by simpa [operands] using hf
    exact texts_bracket_subset negated (by decide) (texts_operandsAll_subset false ps)

theorem texts_operandsAll_subset : ∀ (negated : Bool) (ps : List Predicate),
    ∀ f ∈ operandsAll negated ps, texts f ⊆ searchTexts
  | _, [], f, hf => by simp [operandsAll] at hf
  | negated, p :: ps, f, hf => by
    rw [operandsAll] at hf
    rcases List.mem_append.1 hf with hf | hf
    · exact texts_operands_subset negated p f hf
    · exact texts_operandsAll_subset negated ps f hf

end

theorem texts_filter_subset (ps : List Predicate) : texts (filter ps) ⊆ searchTexts := by
  have hoperands := texts_operandsAll_subset false ps
  unfold filter
  split
  · exact List.nil_subset _
  · next h =>
    rw [texts_text_cons]
    exact List.cons_subset.2 ⟨by decide, texts_join_subset (by decide) hoperands⟩

/-! ## Joins -/

theorem texts_column_subset (d : Dialect) (c : Option CollectionRef) (name : String) :
    texts (column d c name) ⊆ searchTexts := by
  cases c with
  | none => exact List.nil_subset _
  | some c =>
    have hpoint : ["."] ⊆ searchTexts := by decide
    simp only [column, texts_append]
    exact List.append_subset.2 ⟨texts_table_subset d c, hpoint⟩

theorem texts_joinPairs_subset (d : Dialect) (pairs : List JoinPair) :
    texts (joinPairs d pairs) ⊆ searchTexts := by
  refine piecewise_texts.flatten_subset fun f hf => ?_
  obtain ⟨i, hi, rfl⟩ := List.mem_mapIdx.1 hf
  have hword : (if i = 0 then " ON " else " AND ") ∈ searchTexts := by
    split <;> decide
  have hequals : ["="] ⊆ searchTexts := by decide
  simp only [texts_text_cons, texts_append, texts_nil, List.cons_subset, List.append_subset]
  exact ⟨hword, ⟨texts_column_subset d _ _, List.cons_subset.1 hequals⟩, texts_column_subset d _ _⟩

/-- What stands behind the first words of a join. -/
theorem texts_joined_subset (d : Dialect) (j : Join) :
    texts (d.table j.collection ++ joinPairs d j.pairs) ⊆ searchTexts := by
  rw [texts_append]
  exact List.append_subset.2 ⟨texts_table_subset d _, texts_joinPairs_subset d _⟩

theorem texts_joins_subset (d : Dialect) (js : List Join) :
    texts (joins d js) ⊆ joinTexts ++ searchTexts := by
  refine texts_join_subset (by decide) fun f hf => ?_
  obtain ⟨j, -, rfl⟩ := List.mem_map.1 hf
  have hword : j.joinType.keyword ++ " JOIN " ∈ joinTexts ++ searchTexts := by
    cases j.joinType <;> decide
  rw [join, texts_text_cons]
  exact List.cons_subset.2 ⟨hword,
    List.Subset.trans (texts_joined_subset d j) (List.subset_append_right _ _)⟩

/-! ## Keys and window -/

theorem texts_targets_subset (ts : List Target) :
    texts (Fragment.join "," (ts.map target)) ⊆ searchTexts := by
  refine texts_join_subset (by decide) fun f hf => ?_
  obtain ⟨t, -, rfl⟩ := List.mem_map.1 hf
  exact texts_target_subset t

theorem texts_groupBy_subset (ts : List Target) : texts (groupBy ts) ⊆ searchTexts := by
  unfold groupBy
  split
  · exact List.nil_subset _
  · rw [texts_text_cons]
    exact List.cons_subset.2 ⟨by decide, texts_targets_subset ts⟩

theorem texts_sortKey_subset (k : SortKey) : texts (sortKey k) ⊆ searchTexts := by
  have hword : [" " ++ k.order.keyword] ⊆ searchTexts := by
    cases k.order <;> decide
  simp only [sortKey, texts_append]
  exact List.append_subset.2 ⟨texts_target_subset k.target, hword⟩

theorem texts_orderBy_subset (d : Dialect) (c : Clauses) :
    texts (orderBy d c) ⊆ searchTexts := by
  unfold orderBy
  split
  · split <;> decide
  · rw [texts_text_cons]
    refine List.cons_subset.2 ⟨by decide, texts_join_subset (by decide) fun f hf => ?_⟩
    obtain ⟨k, -, rfl⟩ := List.mem_map.1 hf
    exact texts_sortKey_subset k

theorem texts_window_subset (d : Dialect) (w : Option Window) :
    texts (window d w) ⊆ searchTexts := by
  cases w with
  | none => exact List.nil_subset _
  | some w =>
    unfold window
    cases d.limitStyle with
    | limitOffset =>
      change [" LIMIT ", " OFFSET "] ⊆ searchTexts
      decide
    | offsetFetch =>
      change [" OFFSET ", " ROWS FETCH NEXT ", " ROWS ONLY"] ⊆ searchTexts
      decide

/-- The joins come first. -/
theorem clauses_eq (d : Dialect) (p : Plan) : clauses d p = joins d p.joins ++
    (filter p.predicates ++ groupBy p.groups ++ orderBy d p.toClauses ++ window d p.window) := by
  simp only [clauses, List.append_assoc]

/-- The clauses behind the joins. -/
theorem texts_unjoined_subset (d : Dialect) (p : Plan) :
    texts (filter p.predicates ++ groupBy p.groups ++ orderBy d p.toClauses ++
      window d p.window) ⊆ searchTexts := by
  simp only [texts_append, List.append_subset]
  exact ⟨⟨⟨texts_filter_subset _, texts_groupBy_subset _⟩, texts_orderBy_subset d _⟩,
    texts_window_subset d _⟩

theorem texts_clauses_subset (d : Dialect) (p : Plan) :
    texts (clauses d p) ⊆ joinTexts ++ searchTexts := by
  have hunjoined : texts (filter p.predicates ++ groupBy p.groups ++ orderBy d p.toClauses ++
      window d p.window) ⊆ joinTexts ++ searchTexts :=
    List.Subset.trans (texts_unjoined_subset d p) (List.subset_append_right _ _)
  rw [clauses_eq, texts_append]
  exact List.append_subset.2 ⟨texts_joins_subset d p.joins, hunjoined⟩

/-! ## What stands before the clauses -/

theorem texts_projections_subset (ps : List Projection) :
    texts (projections ps) ⊆ searchTexts := by
  unfold projections
  split
  · decide
  · refine texts_join_subset (by decide) fun f hf => ?_
    obtain ⟨p, -, rfl⟩ := List.mem_map.1 hf
    have has : [" AS "] ⊆ searchTexts := by decide
    unfold projection
    split
    · rw [texts_append]
      exact List.append_subset.2 ⟨texts_target_subset p.target, has⟩
    · exact texts_target_subset p.target

theorem texts_assignment_subset (a : Assignment) (v : Value) :
    texts (assignment a v) ⊆ searchTexts := by
  have hfield := texts_fieldName_subset a.field
  have hequals : ["="] ⊆ searchTexts := by decide
  unfold assignment
  dsimp only
  split
  · next op hop =>
    have hop : [op.symbol.toString] ⊆ searchTexts := by cases op <;> decide
    simp only [texts_append, texts_text_cons, texts_nil, texts_slot_cons, List.append_subset]
    exact ⟨⟨⟨hfield, hequals⟩, hfield⟩, hop⟩
  · rw [texts_append]
    exact List.append_subset.2 ⟨hfield, hequals⟩

/-- The fragment is a head and, behind a blank, the clauses of a plan. -/
def Headed (d : Dialect) (f : Fragment) : Prop :=
  ∃ head p, f = head ++ .text " " :: clauses d p ∧ texts head ⊆ searchTexts

theorem headed_select {s : Find} {f : Fragment} (h : select d s values = .ok f) : Headed d f := by
  obtain ⟨p, -, h⟩ := Run.outcome_bind_eq_ok.1 h
  cases h
  have hselect : "SELECT " ∈ searchTexts := by decide
  have hfrom : [" FROM "] ⊆ searchTexts := by decide
  refine ⟨.text "SELECT " :: (projections s.projection ++ [.text " FROM "] ++
    d.table s.collection), p, by simp, ?_⟩
  simp only [texts_text_cons, texts_append, texts_nil, List.cons_subset, List.append_subset]
  exact ⟨hselect, ⟨texts_projections_subset _, List.cons_subset.1 hfrom⟩, texts_table_subset d _⟩

theorem headed_delete {s : Search} {f : Fragment} (h : delete d s values = .ok f) :
    Headed d f := by
  obtain ⟨p, -, h⟩ := Run.outcome_bind_eq_ok.1 h
  cases h
  have hdelete : "DELETE FROM " ∈ searchTexts := by decide
  refine ⟨.text "DELETE FROM " :: d.table s.collection, p, by simp, ?_⟩
  rw [texts_text_cons]
  exact List.cons_subset.2 ⟨hdelete, texts_table_subset d _⟩

theorem headed_count {s : Search} {f : Fragment} (h : count d s values = .ok f) : Headed d f := by
  obtain ⟨p, -, h⟩ := Run.outcome_bind_eq_ok.1 h
  cases h
  have hcount : ["SELECT COUNT(*) AS ", " FROM "] ⊆ searchTexts := by decide
  refine ⟨[.text "SELECT COUNT(*) AS ", .name countColumn, .text " FROM "] ++
    d.table s.collection, p, by simp, ?_⟩
  rw [texts_append]
  exact List.append_subset.2 ⟨hcount, texts_table_subset d _⟩

/-- Assignments end with the placeholder of the last one. -/
theorem exists_slot_last_assignments : ∀ {xs : List (Assignment × Value)}, xs ≠ [] →
    ∃ init v, Fragment.join "," (xs.map fun a => assignment a.1 a.2) =
      init ++ [.slot .assignment v]
  | [], hne => absurd rfl hne
  | [(a, v)], _ => by
    simp only [List.map_cons, List.map_nil, join_singleton, assignment]
    cases a.operator with
    | none => exact ⟨fieldName a.field ++ [.text "="], v, by simp⟩
    | some op =>
      exact ⟨fieldName a.field ++ [.text "="] ++ fieldName a.field ++ [.text op.symbol.toString],
        v, by simp⟩
  | x :: y :: xs, _ => by
    obtain ⟨init, v, hlast⟩ := exists_slot_last_assignments (List.cons_ne_nil y xs)
    simp only [List.map_cons] at hlast ⊢
    rw [join_cons_cons, hlast]
    exact ⟨assignment x.1 x.2 ++ .text "," :: init, v, by simp⟩

/-- An update has no blank behind its head, which ends with a placeholder. -/
theorem update_eq_head {s : Search} {f : Fragment} (h : update d s values = .ok f) :
    ∃ head v p, f = head ++ .slot .assignment v :: clauses d p ∧ texts head ⊆ searchTexts ∧
      p.HasParts s.entries := by
  obtain ⟨xs, p, hp, hne, rfl⟩ := update_eq_ok.1 h
  obtain ⟨hparts, -⟩ := Plan.hasParts_of_ofChanges hp
  obtain ⟨init, v, hlast⟩ := exists_slot_last_assignments hne
  have hassignments : texts (Fragment.join "," (xs.map fun a => assignment a.1 a.2)) ⊆
      searchTexts := by
    refine texts_join_subset (by decide) fun g hg => ?_
    obtain ⟨a, -, rfl⟩ := List.mem_map.1 hg
    exact texts_assignment_subset a.1 a.2
  rw [hlast, texts_append] at hassignments
  have hupdate : "UPDATE " ∈ searchTexts := by decide
  have hset : [" SET "] ⊆ searchTexts := by decide
  refine ⟨.text "UPDATE " :: (d.table s.collection ++ [.text " SET "] ++ init), v, p, ?_, ?_, hparts⟩
  · rw [hlast]
    simp
  · simp only [texts_text_cons, texts_append, texts_nil, List.cons_subset, List.append_subset]
    exact ⟨hupdate, ⟨texts_table_subset d _, List.cons_subset.1 hset⟩,
      (List.append_subset.1 hassignments).1⟩

theorem texts_select_subset {s : Find} {f : Fragment} (h : select d s values = .ok f) :
    texts f ⊆ joinTexts ++ searchTexts := by
  obtain ⟨head, p, rfl, hhead⟩ := headed_select h
  have hblank : " " ∈ joinTexts ++ searchTexts := by decide
  rw [texts_append, texts_text_cons]
  exact List.append_subset.2 ⟨List.Subset.trans hhead (List.subset_append_right _ _),
    List.cons_subset.2 ⟨hblank, texts_clauses_subset d p⟩⟩

end Sql

end QueryLayer
