import QueryLayer.Proofs.Sql.Legible
import QueryLayer.Sql.Clause

/-!
# The clauses of a search are legible

Every clause begins with a blank and is legible, whatever names and values it
holds, so it may stand behind anything. Joins are the exception: they begin with
a word, and whoever writes them leaves a blank or a slot before them.
-/

namespace QueryLayer

namespace Sql

open Fragment

/-! ## Fields and tables -/

theorem legible_fieldName (f : FieldRef) : Legible (fieldName f) := by
  refine legible_join (by decide) fun g hg => ?_
  obtain ⟨part, -, rfl⟩ := List.mem_map.1 hg
  exact legible_name part

theorem legible_target (t : Target) : Legible (target t) := by
  obtain ⟨field, aggregation⟩ := t
  cases aggregation with
  | none => exact legible_fieldName field
  | some a =>
    have hclose : Mark ")" := by decide
    have hbody : Legible (fieldName field ++ [.text ")"]) :=
      hclose.between (legible_fieldName field) legible_nil
    have hopen : (Piece.text (a.keyword ++ "(")).Clean ∧
        (Piece.text (a.keyword ++ "(")).rightEdge = .clear := by
      cases a <;> decide
    exact hbody.text_cons hopen.1 hopen.2

theorem legible_table (d : Dialect) (c : CollectionRef) : Legible (d.table c) := by
  unfold Dialect.table
  cases d.environment with
  | embedded => exact legible_name c.name
  | server =>
    have hpoint : Mark "." := by decide
    exact hpoint.between (legible_name c.database) (legible_name c.name)

/-! ## The filter -/

/-- A negation is legible and runs into nothing behind it. -/
theorem legible_negation (negated : Bool) :
    Legible (negation negated) ∧ Trailing (negation negated) := by
  cases negated with
  | false => exact ⟨legible_nil, trailing_nil⟩
  | true => exact ⟨legible_singleton (by decide), by simp [negation, Trailing]; decide⟩

theorem legible_negation_append (negated : Bool) {f : Fragment} (hf : Legible f) :
    Legible (negation negated ++ f) :=
  (legible_negation negated).1.append hf (.inl (legible_negation negated).2)

theorem legible_comparison (negated : Bool) (t : Target) {symbol : String} (hs : Mark symbol)
    (v : Value) : Legible (comparison negated t symbol v) := by
  rw [comparison, List.append_assoc]
  exact legible_negation_append negated
    (hs.between (legible_target t) (legible_slot .operand v))

theorem legible_itemSlots (vs : List Value) : Legible (itemSlots vs) := by
  refine legible_join (by decide) fun f hf => ?_
  obtain ⟨i, hi, rfl⟩ := List.mem_mapIdx.1 hf
  exact legible_slot _ _

theorem legible_test (negated : Bool) (t : Test) : Legible (test negated t) := by
  obtain ⟨target, criterion⟩ := t
  cases criterion with
  | equals v => exact legible_comparison negated target (by decide) v
  | like v => exact legible_comparison negated target (by decide) v
  | lower v => exact legible_comparison negated target (by decide) v
  | higher v => exact legible_comparison negated target (by decide) v
  | null =>
    have his : Mark " IS " := by decide
    simp only [test, List.append_assoc, List.singleton_append]
    exact his.between (legible_target target)
      (legible_negation_append negated (legible_singleton (by decide)))
  | oneOf vs =>
    have hin : Mark " IN (" := by decide
    have hclose : Mark ")" := by decide
    simp only [test, List.append_assoc, List.singleton_append]
    exact legible_negation_append negated
      (hin.between (legible_target target) (hclose.between (legible_itemSlots vs) legible_nil))
  | between lower upper =>
    have hbetween : Mark " BETWEEN " := by decide
    have hand : Mark " AND " := by decide
    simp only [test, List.append_assoc]
    exact legible_negation_append negated (hbetween.between (legible_target target)
      ((hand.cons (legible_slot .upperBound upper)).slot_cons .lowerBound lower))

/-- The word of an operator between blanks keeps operands apart. -/
theorem mark_connector (kind : OperationKind) : Mark (" " ++ kind.keyword ++ " ") := by
  cases kind <;> decide

theorem legible_bracket (negated : Bool) (connector : OperationKind) {fs : List Fragment}
    (hfs : ∀ f ∈ fs, Legible f) : Legible (bracket negated connector fs) := by
  have hopen : Mark "(" := by decide
  have hclose : Mark ")" := by decide
  simp only [bracket, List.append_assoc, List.singleton_append]
  exact legible_negation_append negated (hopen.cons
    (hclose.between (legible_join (mark_connector connector) hfs) legible_nil))

mutual

/-- Every operand of a predicate is legible. -/
theorem legible_operands : ∀ (negated : Bool) (p : Predicate), ∀ f ∈ operands negated p, Legible f
  | negated, .test t, f, hf => by
    obtain rfl : f = test negated t := by simpa [operands] using hf
    exact legible_test negated t
  | negated, .not p, f, hf => by
    rw [operands] at hf
    exact legible_operands (!negated) p f hf
  | negated, .all ps, f, hf => by
    obtain rfl : f = bracket negated .and (operandsAll false ps) := by simpa [operands] using hf
    exact legible_bracket negated .and (legible_operandsAll false ps)
  | negated, .any ps, f, hf => by
    obtain rfl : f = bracket negated .or (operandsAll false ps) := by simpa [operands] using hf
    exact legible_bracket negated .or (legible_operandsAll false ps)

/-- The same for several predicates. -/
theorem legible_operandsAll : ∀ (negated : Bool) (ps : List Predicate),
    ∀ f ∈ operandsAll negated ps, Legible f
  | _, [], f, hf => by simp [operandsAll] at hf
  | negated, p :: ps, f, hf => by
    rw [operandsAll] at hf
    rcases List.mem_append.1 hf with hf | hf
    · exact legible_operands negated p f hf
    · exact legible_operandsAll negated ps f hf

end

/-- The operands of a filter, with their word between each two. -/
theorem legible_conjunction (ps : List Predicate) :
    Legible (Fragment.join (" " ++ OperationKind.and.keyword ++ " ") (operandsAll false ps)) :=
  legible_join (mark_connector .and) (legible_operandsAll false ps)

theorem attachable_filter (ps : List Predicate) : Attachable (filter ps) := by
  have hbody := legible_conjunction ps
  unfold filter
  cases h : operandsAll false ps with
  | nil => exact attachable_nil
  | cons f fs =>
    have hwhere : Mark " WHERE " := by decide
    rw [h] at hbody
    exact hwhere.attachable hbody

/-! ## Joins -/

theorem legible_column (d : Dialect) (c : Option CollectionRef) (name : String) :
    Legible (column d c name) := by
  cases c with
  | none => exact legible_name name
  | some c =>
    have hpoint : Mark "." := by decide
    simp only [column]
    exact hpoint.between (legible_table d c) (legible_name name)

theorem attachable_joinPairs (d : Dialect) (pairs : List JoinPair) :
    Attachable (joinPairs d pairs) := by
  refine attachable_flatten fun f hf => ?_
  obtain ⟨i, hi, rfl⟩ := List.mem_mapIdx.1 hf
  have hword : Mark (if i = 0 then " ON " else " AND ") := by
    by_cases h : i = 0
    · rw [if_pos h]
      decide
    · rw [if_neg h]
      decide
  have hequals : Mark "=" := by decide
  rw [List.append_assoc, List.singleton_append]
  exact hword.attachable (hequals.between (legible_column d _ _) (legible_column d _ _))

theorem legible_joinClause (d : Dialect) (j : Join) : Legible (join d j) := by
  have hword : (Piece.text (j.joinType.keyword ++ " JOIN ")).Clean ∧
      (Piece.text (j.joinType.keyword ++ " JOIN ")).rightEdge = .clear := by
    cases j.joinType <;> decide
  have hbody := (legible_table d j.collection).attach (attachable_joinPairs d j.pairs)
  exact hbody.text_cons hword.1 hword.2

theorem legible_joins (d : Dialect) (js : List Join) : Legible (joins d js) := by
  refine legible_join (by decide) fun f hf => ?_
  obtain ⟨j, -, rfl⟩ := List.mem_map.1 hf
  exact legible_joinClause d j

/-! ## Keys and window -/

theorem attachable_groupBy (ts : List Target) : Attachable (groupBy ts) := by
  unfold groupBy
  cases ts with
  | nil => exact attachable_nil
  | cons t ts =>
    have hword : Mark " GROUP BY " := by decide
    refine hword.attachable (legible_join (by decide) fun f hf => ?_)
    obtain ⟨t', -, rfl⟩ := List.mem_map.1 hf
    exact legible_target t'

theorem legible_sortKey (k : SortKey) : Legible (sortKey k) := by
  have hword : (Piece.text (" " ++ k.order.keyword)).Clean ∧
      (Piece.text (" " ++ k.order.keyword)).leftEdge = .clear := by
    cases k.order <;> decide
  exact (legible_target k.target).attach (attachable_text hword)

theorem attachable_orderBy (d : Dialect) (c : Clauses) : Attachable (orderBy d c) := by
  unfold orderBy
  cases c.sorts with
  | nil =>
    by_cases h : c.window.isSome && d.limitStyle == .offsetFetch
    · rw [if_pos h]
      exact attachable_text (by decide)
    · rw [if_neg h]
      exact attachable_nil
  | cons k ks =>
    have hword : Mark " ORDER BY " := by decide
    refine hword.attachable (legible_join (by decide) fun f hf => ?_)
    obtain ⟨k', -, rfl⟩ := List.mem_map.1 hf
    exact legible_sortKey k'

theorem attachable_window (d : Dialect) (w : Option Window) : Attachable (window d w) := by
  cases w with
  | none => exact attachable_nil
  | some w =>
    unfold window
    cases d.limitStyle with
    | limitOffset =>
      have hlimit : Mark " LIMIT " := by decide
      have hoffset : Mark " OFFSET " := by decide
      exact hlimit.attachable ((hoffset.cons (legible_slot _ _)).slot_cons _ _)
    | offsetFetch =>
      have hoffset : Mark " OFFSET " := by decide
      have hfetch : Mark " ROWS FETCH NEXT " := by decide
      have hrows : Attachable [.text " ROWS ONLY"] := attachable_text (by decide)
      have hlimit := hfetch.cons ((legible_slot .limit (rowCount w.limit)).attach hrows)
      exact hoffset.attachable (hlimit.slot_cons _ _)

/-- **The clauses of a plan are legible**, whatever the plan holds. -/
theorem legible_clauses (d : Dialect) (p : Plan) : Legible (clauses d p) := by
  have hfilter := (legible_joins d p.joins).attach (attachable_filter p.predicates)
  have hgroup := hfilter.attach (attachable_groupBy p.groups)
  have horder := hgroup.attach (attachable_orderBy d p.toClauses)
  exact horder.attach (attachable_window d p.window)

end Sql

end QueryLayer
