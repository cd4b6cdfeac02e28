import QueryLayer.Proofs.Document.Assigned
import QueryLayer.Proofs.Document.Demand
import QueryLayer.Proofs.Walk.Misuse

/-!
# Which statements are accepted

A search statement is refused for what it holds: for an assignment where none has
a place, for a second window, for a range without its upper bound, for a test
against an empty list, and for a marker without a value. SQL refuses nothing else
but a full join where the dialect has none (`sql_accepts_iff`). The document store
refuses besides what its filters and pipelines cannot say, and never says less
than it was asked for (`document_accepts_iff`). Where in the tree any of this
stands plays no role.
-/

namespace QueryLayer

open Walk

/-! ## Conditions -/

theorem Operand.exists_eq_literal {o : Operand} (ho : o.markers = 0) : ∃ v, o = .literal v := by
  cases o with
  | literal v => exact ⟨v, rfl⟩
  | prepared => simp [markers] at ho

theorem Value.toItems_ne_nil_iff {v : Value} : v.toItems ≠ [] ↔ v ≠ .list [] := by
  cases v <;> simp [toItems]

namespace Condition

variable {c : Condition}

/-- A condition without markers yields a test, if a range has its upper bound and a
list has items. A value that is no list is the only item. -/
theorem exists_yields_iff (hc : c.markers = 0) : (∃ t, c.Yields t) ↔
    c.Bounded ∧ (c.kind = .oneOf → ∃ v, c.value = .literal v ∧ v ≠ .list []) := by
  obtain ⟨kind, target, value, upper⟩ := c
  cases kind with
  | equals =>
    obtain ⟨v, rfl⟩ := Operand.exists_eq_literal hc
    exact iff_of_true ⟨⟨target, .equals v⟩, rfl, rfl⟩ ⟨by simp [Bounded], by simp⟩
  | like =>
    obtain ⟨v, rfl⟩ := Operand.exists_eq_literal hc
    exact iff_of_true ⟨⟨target, .like v⟩, rfl, rfl⟩ ⟨by simp [Bounded], by simp⟩
  | lower =>
    obtain ⟨v, rfl⟩ := Operand.exists_eq_literal hc
    exact iff_of_true ⟨⟨target, .lower v⟩, rfl, rfl⟩ ⟨by simp [Bounded], by simp⟩
  | higher =>
    obtain ⟨v, rfl⟩ := Operand.exists_eq_literal hc
    exact iff_of_true ⟨⟨target, .higher v⟩, rfl, rfl⟩ ⟨by simp [Bounded], by simp⟩
  | null => exact iff_of_true ⟨⟨target, .null⟩, rfl, trivial⟩ ⟨by simp [Bounded], by simp⟩
  | oneOf =>
    constructor
    · rintro ⟨⟨_, k⟩, -, hk⟩
      cases k with
      | oneOf vs =>
        obtain ⟨hne, v, hv, rfl⟩ := hk
        exact ⟨by simp [Bounded], fun _ =>
          ⟨v, (Operand.gives_iff_eq_literal hc).1 hv, Value.toItems_ne_nil_iff.1 hne⟩⟩
      | equals _ | like _ | lower _ | higher _ | null | between _ _ => exact hk.elim
    · rintro ⟨-, h⟩
      obtain ⟨v, rfl, hne⟩ := h rfl
      exact ⟨⟨target, .oneOf v.toItems⟩, rfl, Value.toItems_ne_nil_iff.2 hne, v, rfl, rfl⟩
  | between =>
    cases upper with
    | none =>
      -- no range comes of one bound
      refine iff_of_false ?_ fun h => by simpa using h.1 rfl
      rintro ⟨⟨_, k⟩, -, hk⟩
      cases k with
      | between l u => simp at hk
      | equals _ | like _ | lower _ | higher _ | null | oneOf _ => exact hk.elim
    | some o =>
      have hmarkers : value.markers + o.markers = 0 := hc
      obtain ⟨l, rfl⟩ := Operand.exists_eq_literal (o := value) (by omega)
      obtain ⟨u, rfl⟩ := Operand.exists_eq_literal (o := o) (by omega)
      exact iff_of_true ⟨⟨target, .between l u⟩, rfl, rfl, _, rfl, rfl⟩ ⟨fun _ => rfl, by simp⟩

/-- The store accepts a condition that is not aggregated, and a pattern that is a
text. -/
theorem exists_admits_document_iff (hc : c.markers = 0) : (∃ t, Document.rules.Admits c t) ↔
    (∃ t, c.Yields t) ∧ c.target.aggregation = none ∧
      (c.kind = .like → ∃ text, c.value = .literal (.text text)) := by
  simp only [Rules.Admits, Document.condition_rules_eq_ok, Document.test_rules_eq_ok]
  -- the test is one for a pattern exactly if its condition is, and has its value
  constructor
  · rintro ⟨t, haggregation, hyields, hpattern⟩
    refine ⟨⟨t, hyields⟩, haggregation, fun hlike => ?_⟩
    obtain ⟨target, k⟩ := t
    obtain ⟨-, hk⟩ := hyields
    rw [hlike] at hk
    cases k with
    | like v =>
      obtain ⟨text, rfl⟩ := hpattern v rfl
      have hvalue : c.value.markers = 0 := by simpa [markers, hlike] using hc
      exact ⟨text, (Operand.gives_iff_eq_literal hvalue).1 hk⟩
    | equals _ | lower _ | higher _ | null | oneOf _ | between _ _ => exact hk.elim
  · rintro ⟨⟨t, hyields⟩, haggregation, hpattern⟩
    refine ⟨t, haggregation, hyields, fun v hv => ?_⟩
    obtain ⟨-, hk⟩ := hyields
    rw [hv] at hk
    cases hkind : c.kind with
    | like =>
      obtain ⟨text, htext⟩ := hpattern hkind
      rw [hkind, htext] at hk
      exact ⟨text, hk⟩
    | equals | lower | higher | null | oneOf | between =>
      rw [hkind] at hk
      exact hk.elim

end Condition

/-! ## Statements -/

namespace Statement

/-- A find, a count, a delete or an update. -/
def IsSearch : Statement → Prop
  | .find _ | .count _ | .delete _ | .update _ => True
  | .insert _ | .replace _ | .create _ | .drop _ | .clear _ => False

/-- A delete or an update, which have filters and nothing else of a search. -/
def FiltersOnly : Statement → Prop
  | .delete _ | .update _ => True
  | .find _ | .count _ | .insert _ | .replace _ | .create _ | .drop _ | .clear _ => False

/-- Assignments stand where they have a place: at the top level of an update, which
has one at least. -/
def AssignsInPlace : Statement → Prop
  | .update s => (∀ e ∈ s.entries, e.Flat) ∧ (Entry.partsAll s.entries).assignments ≠ []
  | s => (Entry.partsAll s.entries).assignments = []

/-- The entries with the runtime values in their places. -/
def filled (s : Statement) (values : List Value) : List Entry := Entry.fillAll values s.entries

/-- What every language asks of a search statement. -/
@[mk_iff]
structure Renderable (s : Statement) (values : List Value) : Prop where
  assigns : s.AssignsInPlace
  windows : (Entry.partsAll s.entries).windows.length ≤ 1
  bounded : ∀ c ∈ Entry.conditionsAll s.entries, c.Bounded
  items : ∀ c ∈ Entry.conditionsAll (s.filled values), c.kind = .oneOf →
    ∃ v, c.value = .literal v ∧ v ≠ .list []
  values : s.markers ≤ values.length

end Statement

/-- A number with an opposite. -/
def Value.IsSubtractable (v : Value) : Prop :=
  (∃ x, v = .float x) ∨ ∃ n, v = .int n ∧ n ≠ Int64.minValue

/-- A number that is not zero. -/
def Value.IsDivisor (v : Value) : Prop :=
  (∃ x, v = .float x ∧ (x == 0.0) = false) ∨ ∃ n, v = .int n ∧ n ≠ 0

namespace Document

/-- What the document store asks besides. -/
@[mk_iff]
structure Expressible (s : Statement) (values : List Value) : Prop where
  conditions : ∀ c ∈ Entry.conditionsAll s.entries, c.target.aggregation = none
  sorts : ∀ k ∈ (Entry.partsAll s.entries).sorts, k.target.aggregation = none
  groups : ∀ t ∈ (Entry.partsAll s.entries).groups, t.aggregation = none
  joins : ∀ j ∈ (Entry.partsAll s.entries).joins, j.joinType = .inner ∨ j.joinType = .left
  patterns : ∀ c ∈ Entry.conditionsAll (s.filled values), c.kind = .like →
    ∃ text, c.value = .literal (.text text)
  filters : s.FiltersOnly → (Entry.partsAll s.entries).clauses = .none
  subtracted : ∀ a ∈ (Entry.partsAll (s.filled values)).assignments, a.operator = some .subtract →
    ∃ v, a.value = .literal v ∧ v.IsSubtractable
  divided : ∀ a ∈ (Entry.partsAll (s.filled values)).assignments, a.operator = some .divide →
    ∃ v, a.value = .literal v ∧ v.IsDivisor

end Document

/-! ## Plans -/

namespace Plan

variable {α : Type} {r : Rules} {es : List Entry} {values : List Value} {p : Plan}
  {assign : Assignment → Step α} {R : Assignment → α → Prop}

/-- The conditions of filled entries have no markers. -/
theorem markers_of_mem_conditionsAll (hes : Entry.markersAll es ≤ values.length) :
    ∀ c ∈ Entry.conditionsAll (Entry.fillAll values es), c.markers = 0 :=
  ((Entry.markersAll_eq_zero_iff _).1 (Entry.markersAll_fillAll hes)).1

theorem markers_of_mem_assignments (hes : Entry.markersAll es ≤ values.length) :
    ∀ a ∈ (Entry.partsAll (Entry.fillAll values es)).assignments, a.value.markers = 0 :=
  ((Entry.markersAll_eq_zero_iff _).1 (Entry.markersAll_fillAll hes)).2

/-- What a statement that assigns asks of its plan, it asks of its entries. -/
theorem exists_ofChanges_and_iff (hr : r.Blind) (h : Assigns assign R) (es : List Entry)
    (values : List Value) {C : Clauses → Prop}
    {D : Prop} (hC : ∀ p : Plan, p.HasParts es → (C p.toClauses ↔ D)) :
    (∃ xs p, ofChanges r assign es values = .ok (xs, p) ∧ xs ≠ [] ∧ C p.toClauses) ↔
      (∃ x, ofChanges r assign es values = .ok x) ∧ (Entry.partsAll es).assignments ≠ [] ∧ D := by
  have hfacts {xs : List α} {p : Plan} (hp : ofChanges r assign es values = .ok (xs, p)) :
      (xs ≠ [] ↔ (Entry.partsAll es).assignments ≠ []) ∧ (C p.toClauses ↔ D) := by
    obtain ⟨-, -, hxs, -, hgrows⟩ := (ofChanges_eq_ok hr h).1 hp
    refine ⟨not_congr ?_, hC p (hasParts_of_grows hgrows)⟩
    rw [← List.length_eq_zero_iff, ← hxs.length_eq, List.length_eq_zero_iff]
    exact Entry.assignments_fillAll_eq_nil_iff
  constructor
  · rintro ⟨xs, p, hp, hne, hclauses⟩
    exact ⟨⟨_, hp⟩, (hfacts hp).1.1 hne, (hfacts hp).2.1 hclauses⟩
  · rintro ⟨⟨⟨xs, p⟩, hp⟩, hne, hD⟩
    exact ⟨xs, p, hp, (hfacts hp).1.2 hne, (hfacts hp).2.2 hD⟩

end Plan

/-- A range keeps its upper bound when it is filled. -/
theorem Entry.forall_bounded_fillAll (es : List Entry) (values : List Value) :
    (∀ c ∈ conditionsAll (fillAll values es), c.Bounded) ↔ ∀ c ∈ conditionsAll es, c.Bounded :=
  forall_conditions_fillAll fun o => o.1 = .between → o.2.2 = true

/-- And a condition its aggregation. -/
theorem Entry.forall_aggregation_fillAll (es : List Entry) (values : List Value) :
    (∀ c ∈ conditionsAll (fillAll values es), c.target.aggregation = none) ↔
      ∀ c ∈ conditionsAll es, c.target.aggregation = none :=
  forall_conditions_fillAll fun o => o.2.1.aggregation = none

/-! ## SQL -/

namespace Sql

variable {d : Dialect} {es : List Entry} {values : List Value} {statement : String}

theorem passes_rules_iff {p : Parts} :
    p.Passes (rules d statement) ↔ ∀ j ∈ p.joins, j.joinType = .full → d.fullJoin = true := by
  rw [Parts.passes_iff]
  simp only [rules, implies_true, and_true]
  refine forall_congr' fun j => imp_congr_right fun _ => ?_
  split
  · next h => exact iff_of_false (by simp) fun hfull => h.2 (hfull h.1)
  · next h => exact iff_of_true rfl fun hfull => by simpa [hfull] using h

theorem tests_rules_iff (hes : Entry.markersAll es ≤ values.length) :
    Plan.Tests (rules d statement) values es ↔
      (∀ c ∈ Entry.conditionsAll es, c.Bounded) ∧
        ∀ c ∈ Entry.conditionsAll (Entry.fillAll values es), c.kind = .oneOf →
          ∃ v, c.value = .literal v ∧ v ≠ .list [] := by
  rw [← Entry.forall_bounded_fillAll es values, ← forall₂_and]
  refine forall₂_congr fun c hc => ?_
  rw [← Condition.exists_yields_iff (Plan.markers_of_mem_conditionsAll hes c hc)]
  simp [Rules.Admits, rules]

/-- The plan of a statement without assignments. -/
theorem exists_ofEntries_iff {s : Statement}
    (hset : s.AssignsInPlace ↔ (Entry.partsAll s.entries).assignments = [])
    (hmarkers : s.markers = Entry.markersAll s.entries) :
    (∃ p, Plan.ofEntries (rules d statement) s.entries values = .ok p) ↔ s.Renderable values ∧
      ∀ j ∈ (Entry.partsAll s.entries).joins, j.joinType = .full → d.fullJoin = true := by
  rw [Plan.exists_ofEntries_iff (blind_rules d statement), passes_rules_iff,
    Statement.renderable_iff, hset, hmarkers]
  constructor
  · rintro ⟨hvalues, hset, htests, hjoins, hwindows⟩
    obtain ⟨hbounded, hitems⟩ := (tests_rules_iff hvalues).1 htests
    exact ⟨⟨hset, hwindows, hbounded, hitems, hvalues⟩, hjoins⟩
  · rintro ⟨⟨hset, hwindows, hbounded, hitems, hvalues⟩, hjoins⟩
    exact ⟨hvalues, hset, (tests_rules_iff hvalues).2 ⟨hbounded, hitems⟩, hjoins, hwindows⟩

/-- SQL writes any value of an assignment. -/
theorem assigns_assignment :
    Assigns (fun a => return assignment a (← Walk.resolve a.value))
      fun a f => ∃ v, a.value.Gives v ∧ f = assignment a v where
  takes a := (Walk.takes_resolve a.value).bind fun v => .pure (assignment a v)
  clauseFree a := .bind (.resolve a.value) fun _ => .pure _
  still _ ha := (Walk.Still.resolve ha).bind_pure

theorem exists_update_iff {s : Search} : (∃ f, update d s values = .ok f) ↔
    (∃ x, Plan.ofChanges (rules d "update") (fun a => return assignment a (← Walk.resolve a.value))
      s.entries values = .ok x) ∧ (Entry.partsAll s.entries).assignments ≠ [] := by
  have hplan := Plan.exists_ofChanges_and_iff (blind_rules d "update") assigns_assignment s.entries
    values (C := fun _ => True) (D := True) fun _ _ => Iff.rfl
  simp only [and_true] at hplan
  rw [← hplan]
  simp only [update, Run.outcome_bind_eq_ok, Prod.exists]
  constructor
  · rintro ⟨f, fs, p, hp, hf⟩
    refine ⟨fs, p, hp, ?_⟩
    rintro rfl
    cases hf
  · rintro ⟨fs, p, hp, hne⟩
    cases fs with
    | nil => exact absurd rfl hne
    | cons f fs => exact ⟨_, f :: fs, p, hp, rfl⟩

/-- **What SQL accepts.** -/
theorem exists_render_iff {s : Statement} (hs : s.IsSearch) :
    (∃ q, render d s values = .ok q) ↔ s.Renderable values ∧
      ∀ j ∈ (Entry.partsAll s.entries).joins, j.joinType = .full → d.fullJoin = true := by
  cases s with
  | find s =>
    refine (Run.exists_map_eq_ok.trans Run.exists_bind_eq_ok).trans ?_
    exact exists_ofEntries_iff (s := .find s) Iff.rfl rfl
  | count s =>
    refine (Run.exists_map_eq_ok.trans Run.exists_bind_eq_ok).trans ?_
    exact exists_ofEntries_iff (s := .count s) Iff.rfl rfl
  | delete s =>
    refine (Run.exists_map_eq_ok.trans Run.exists_bind_eq_ok).trans ?_
    exact exists_ofEntries_iff (s := .delete s) Iff.rfl rfl
  | update s =>
    refine (Run.exists_map_eq_ok.trans exists_update_iff).trans ?_
    rw [Plan.exists_ofChanges_iff (blind_rules d "update") assigns_assignment, passes_rules_iff,
      Statement.renderable_iff]
    constructor
    · rintro ⟨⟨hvalues, hflat, -, htests, hjoins, hwindows⟩, hset⟩
      obtain ⟨hbounded, hitems⟩ := (tests_rules_iff hvalues).1 htests
      exact ⟨⟨⟨hflat, hset⟩, hwindows, hbounded, hitems, hvalues⟩, hjoins⟩
    · rintro ⟨⟨⟨hflat, hset⟩, hwindows, hbounded, hitems, hvalues⟩, hjoins⟩
      refine ⟨⟨hvalues, hflat, fun a ha => ?_, (tests_rules_iff hvalues).2 ⟨hbounded, hitems⟩,
        hjoins, hwindows⟩, hset⟩
      -- every marker has its value, so the assignment is written with one
      obtain ⟨v, hv⟩ := Operand.exists_eq_literal (Plan.markers_of_mem_assignments hvalues a ha)
      exact ⟨_, v, hv ▸ rfl, rfl⟩
  | insert _ | replace _ | create _ | drop _ | clear _ => exact hs.elim

end Sql

/-! ## The document store -/

namespace Document

variable {s : Search} {es : List Entry} {values : List Value}

theorem passes_rules_iff {p : Parts} : p.Passes rules ↔
    (∀ j ∈ p.joins, j.joinType = .inner ∨ j.joinType = .left) ∧
      (∀ t ∈ p.groups, t.aggregation = none) ∧ ∀ k ∈ p.sorts, k.target.aggregation = none := by
  have hjoin (j : Join) : rules.join j = .ok () ↔ j.joinType = .inner ∨ j.joinType = .left := by
    cases h : j.joinType <;> simp [rules, refuseIf, h]
  have hgroup (t : Target) : rules.groupKey t = .ok () ↔ t.aggregation = none := by
    cases h : t.aggregation <;> simp [rules, refuseIf, h]
  have hsort (k : SortKey) : rules.sortKey k = .ok () ↔ k.target.aggregation = none := by
    cases h : k.target.aggregation <;> simp [rules, refuseIf, h]
  simp only [Parts.passes_iff, hjoin, hgroup, hsort]

theorem tests_rules_iff (hes : Entry.markersAll es ≤ values.length) :
    Plan.Tests rules values es ↔
      ((∀ c ∈ Entry.conditionsAll es, c.Bounded) ∧
        ∀ c ∈ Entry.conditionsAll (Entry.fillAll values es), c.kind = .oneOf →
          ∃ v, c.value = .literal v ∧ v ≠ .list []) ∧
      (∀ c ∈ Entry.conditionsAll es, c.target.aggregation = none) ∧
        ∀ c ∈ Entry.conditionsAll (Entry.fillAll values es), c.kind = .like →
          ∃ text, c.value = .literal (.text text) := by
  rw [← Entry.forall_bounded_fillAll es values,
    ← Entry.forall_aggregation_fillAll es values, ← forall₂_and, ← forall₂_and,
    ← forall₂_and]
  refine forall₂_congr fun c hc => ?_
  have hmarkers := Plan.markers_of_mem_conditionsAll hes c hc
  rw [Condition.exists_admits_document_iff hmarkers, Condition.exists_yields_iff hmarkers]

/-- A plan has nothing beside its predicates if its entries have no clause. -/
theorem extraClause_eq_none_iff {p : Plan} (hp : p.HasParts es) :
    extraClause p.toClauses = none ↔ (Entry.partsAll es).clauses = .none := by
  have hwindow : p.window = none ↔ (Entry.partsAll es).windows = [] := by
    rw [← hp.window]
    cases p.window <;> simp
  have hclauses : (Entry.partsAll es).clauses = .none ↔ (Entry.partsAll es).joins = [] ∧
      (Entry.partsAll es).groups = [] ∧ (Entry.partsAll es).sorts = [] ∧
      (Entry.partsAll es).windows = [] := by
    simp [Parts.clauses, Parts.none]
  rw [hclauses, ← hp.joins, ← hp.groups, ← hp.sorts, ← hwindow, extraClause]
  cases p.joins <;> cases p.groups <;> cases p.sorts <;> cases p.window <;> simp

/-- A change can be made of an assignment, if its number has an opposite or a
reciprocal where one is asked for. -/
theorem exists_requests_iff {base : CollectionRef} {a : Assignment} (ha : a.value.markers = 0) :
    (∃ c, Requests base a c) ↔
      (a.operator = some .subtract → ∃ v, a.value = .literal v ∧ v.IsSubtractable) ∧
        (a.operator = some .divide → ∃ v, a.value = .literal v ∧ v.IsDivisor) := by
  obtain ⟨field, o, operator⟩ := a
  obtain ⟨v, rfl⟩ := Operand.exists_eq_literal ha
  have hasks : (∃ c, Requests base ⟨field, .literal v, operator⟩ c) ↔
      ∃ op w, Asks operator v op w := by
    constructor
    · rintro ⟨c, u, hu, hc, -⟩
      cases hu
      exact ⟨_, _, hc⟩
    · rintro ⟨op, w, h⟩
      exact ⟨⟨op, path base field, w⟩, v, rfl, h, rfl⟩
  rw [hasks]
  -- only a difference and a quotient need a number of a certain kind
  match operator with
  | none => exact iff_of_true ⟨_, _, .set v⟩ (by simp)
  | some .add => exact iff_of_true ⟨_, _, .add v⟩ (by simp)
  | some .multiply => exact iff_of_true ⟨_, _, .multiply v⟩ (by simp)
  | some .subtract =>
    constructor
    · rintro ⟨_, _, h⟩
      refine ⟨fun _ => ⟨v, rfl, ?_⟩, by simp⟩
      cases h with
      | subtractInt hn => exact .inr ⟨_, rfl, hn⟩
      | subtractFloat x => exact .inl ⟨x, rfl⟩
    · rintro ⟨h, -⟩
      obtain ⟨u, hu, ⟨x, rfl⟩ | ⟨n, rfl, hn⟩⟩ := h rfl
      · cases hu
        exact ⟨_, _, .subtractFloat x⟩
      · cases hu
        exact ⟨_, _, .subtractInt hn⟩
  | some .divide =>
    constructor
    · rintro ⟨_, _, h⟩
      refine ⟨by simp, fun _ => ⟨v, rfl, ?_⟩⟩
      cases h with
      | divideInt hn => exact .inr ⟨_, rfl, hn⟩
      | divideFloat hx => exact .inl ⟨_, rfl, hx⟩
    · rintro ⟨-, h⟩
      obtain ⟨u, hu, ⟨x, rfl, hx⟩ | ⟨n, rfl, hn⟩⟩ := h rfl
      · cases hu
        exact ⟨_, _, .divideFloat hx⟩
      · cases hu
        exact ⟨_, _, .divideInt hn⟩

/-- The plan of a statement without assignments, and what its kind asks of it. -/
theorem exists_ofEntries_iff {s : Statement}
    (hset : s.AssignsInPlace ↔ (Entry.partsAll s.entries).assignments = [])
    (hmarkers : s.markers = Entry.markersAll s.entries) :
    (∃ p, Plan.ofEntries rules s.entries values = .ok p) ∧
        (s.FiltersOnly → (Entry.partsAll s.entries).clauses = .none) ↔
      s.Renderable values ∧ Expressible s values := by
  rw [Plan.exists_ofEntries_iff blind_rules, passes_rules_iff, Statement.renderable_iff, hset,
    hmarkers]
  constructor
  · rintro ⟨⟨hvalues, hset, htests, ⟨hjoins, hgroups, hsorts⟩, hwindows⟩, hfilters⟩
    obtain ⟨⟨hbounded, hitems⟩, hconditions, hpatterns⟩ := (tests_rules_iff hvalues).1 htests
    -- without assignments nothing is asked of their values
    have hfilled : (Entry.partsAll (s.filled values)).assignments = [] :=
      Entry.assignments_fillAll_eq_nil_iff.2 hset
    have hnone : ∀ a, a ∉ (Entry.partsAll (s.filled values)).assignments := by
      rw [hfilled]
      exact fun _ => List.not_mem_nil
    exact ⟨⟨hset, hwindows, hbounded, hitems, hvalues⟩, hconditions, hsorts, hgroups, hjoins,
      hpatterns, hfilters, fun a ha => absurd ha (hnone a), fun a ha => absurd ha (hnone a)⟩
  · rintro ⟨⟨hset, hwindows, hbounded, hitems, hvalues⟩, hexpress⟩
    exact ⟨⟨hvalues, hset,
      (tests_rules_iff hvalues).2 ⟨⟨hbounded, hitems⟩, hexpress.conditions, hexpress.patterns⟩,
      ⟨hexpress.joins, hexpress.groups, hexpress.sorts⟩, hwindows⟩, hexpress.filters⟩

theorem exists_delete_iff : (∃ c, delete s values = .ok c) ↔
    (∃ p, Plan.ofEntries rules s.entries values = .ok p) ∧
      (Entry.partsAll s.entries).clauses = .none := by
  simp only [delete, Run.outcome_bind_eq_ok, filterOnly_eq_ok]
  constructor
  · rintro ⟨c, p, hp, f, ⟨hextra, -⟩, -⟩
    exact ⟨⟨p, hp⟩, (extraClause_eq_none_iff (Plan.hasParts_of_ofEntries hp)).1 hextra⟩
  · rintro ⟨⟨p, hp⟩, hclauses⟩
    exact ⟨_, p, hp, _, ⟨(extraClause_eq_none_iff (Plan.hasParts_of_ofEntries hp)).2 hclauses, rfl⟩,
      rfl⟩

theorem exists_update_iff : (∃ c, render (.update s) values = .ok c) ↔
    (∃ x, Plan.ofChanges rules (assignChange s.collection) s.entries values = .ok x) ∧
      (Entry.partsAll s.entries).assignments ≠ [] ∧
      (Entry.partsAll s.entries).clauses = .none := by
  rw [← Plan.exists_ofChanges_and_iff blind_rules (assigns_assignChange s.collection) s.entries
    values (C := fun c => extraClause c = none) fun p hp => extraClause_eq_none_iff hp]
  simp only [update_eq_ok]
  constructor
  · rintro ⟨c, changes, p, hp, hne, hextra, -⟩
    exact ⟨changes, p, hp, hne, hextra⟩
  · rintro ⟨changes, p, hp, hne, hextra⟩
    exact ⟨_, changes, p, hp, hne, hextra, rfl⟩

/-- **What the document store accepts.** -/
theorem exists_render_iff {s : Statement} (hs : s.IsSearch) :
    (∃ c, render s values = .ok c) ↔ s.Renderable values ∧ Expressible s values := by
  cases s with
  | find s =>
    refine Run.exists_bind_eq_ok.trans (Iff.trans ?_ (exists_ofEntries_iff (s := .find s) Iff.rfl rfl))
    exact (and_iff_left False.elim).symm
  | count s =>
    refine Run.exists_bind_eq_ok.trans (Iff.trans ?_ (exists_ofEntries_iff (s := .count s) Iff.rfl rfl))
    exact (and_iff_left False.elim).symm
  | delete s =>
    refine exists_delete_iff.trans (Iff.trans ?_ (exists_ofEntries_iff (s := .delete s) Iff.rfl rfl))
    exact and_congr_right fun _ => ⟨fun h _ => h, fun h => h trivial⟩
  | update s =>
    rw [exists_update_iff, Plan.exists_ofChanges_iff blind_rules (assigns_assignChange s.collection),
      Statement.renderable_iff, expressible_iff, passes_rules_iff]
    constructor
    · rintro ⟨⟨hvalues, hflat, hchanges, htests, ⟨hjoins, hgroups, hsorts⟩, hwindows⟩, hset,
        hclauses⟩
      obtain ⟨⟨hbounded, hitems⟩, hconditions, hpatterns⟩ := (tests_rules_iff hvalues).1 htests
      have hrequests a ha :=
        (exists_requests_iff (Plan.markers_of_mem_assignments hvalues a ha)).1 (hchanges a ha)
      exact ⟨⟨⟨hflat, hset⟩, hwindows, hbounded, hitems, hvalues⟩, hconditions, hsorts, hgroups,
        hjoins, hpatterns, fun _ => hclauses, fun a ha => (hrequests a ha).1,
        fun a ha => (hrequests a ha).2⟩
    · rintro ⟨⟨⟨hflat, hset⟩, hwindows, hbounded, hitems, hvalues⟩, hconditions, hsorts, hgroups,
        hjoins, hpatterns, hclauses, hsubtracted, hdivided⟩
      refine ⟨⟨hvalues, hflat, fun a ha => ?_,
        (tests_rules_iff hvalues).2 ⟨⟨hbounded, hitems⟩, hconditions, hpatterns⟩,
        ⟨hjoins, hgroups, hsorts⟩, hwindows⟩, hset, hclauses trivial⟩
      exact (exists_requests_iff (Plan.markers_of_mem_assignments hvalues a ha)).2
        ⟨hsubtracted a ha, hdivided a ha⟩
  | insert _ | replace _ | create _ | drop _ | clear _ => exact hs.elim

end Document

/-! ## Both languages -/

namespace Language

variable {s : Statement} {values : List Value}

/-- **SQL accepts exactly what it can write.** A dialect refuses a search statement
for an assignment out of its place, a second window, a range without an upper
bound, a test against an empty list, a marker without a value and a full join that
it has not, and for nothing else. -/
theorem sql_accepts_iff (hs : s.IsSearch) (d : Dialect) :
    (∃ c, (sql d).compile s values = .ok c) ↔ s.Renderable values ∧
      ∀ j ∈ (Entry.partsAll s.entries).joins, j.joinType = .full → d.fullJoin = true :=
  Run.exists_map_eq_ok.trans (Sql.exists_render_iff hs)

/-- A find with a test against a list inside a negation, a range and a full join. -/
def picked : Statement :=
  .find ⟨⟨⟨"shop", "users"⟩,
    [.operation .not [.condition ⟨.oneOf, ⟨.plain "rank", none⟩, .prepared, none⟩],
      .operation .or [.join ⟨⟨"shop", "orders"⟩, .full, []⟩, .limit ⟨5, 0⟩],
      .condition ⟨.between, ⟨.plain "age", none⟩, .prepared, some (.literal (.int 65))⟩]⟩, []⟩

/-- It is accepted with one rank, and refused with none; and a dialect without
full joins refuses it. -/
theorem sql_accepts_picked :
    (∃ c, (sql .postgresql).compile picked [.int 1, .int 18] = .ok c) ∧
      (¬ ∃ c, (sql .postgresql).compile picked [.list [], .int 18] = .ok c) ∧
      ¬ ∃ c, (sql .mysql).compile picked [.int 1, .int 18] = .ok c := by
  have hs : picked.IsSearch := trivial
  have hjoins : (Entry.partsAll picked.entries).joins = [⟨⟨"shop", "orders"⟩, .full, []⟩] := rfl
  have hrank (v : Value) : (⟨.oneOf, ⟨.plain "rank", none⟩, .literal v, none⟩ : Condition) ∈
      Entry.conditionsAll (picked.filled [v, .int 18]) := List.mem_cons_self
  refine ⟨(sql_accepts_iff hs _).2 ⟨⟨rfl, Nat.le_refl 1, ?_, ?_, Nat.le_refl 2⟩, ?_⟩, ?_, ?_⟩
  · simp [picked, Statement.entries, Entry.conditionsAll, Entry.conditions, Condition.Bounded]
  · simp [picked, Statement.filled, Statement.entries, Entry.fillAll, Entry.fill, Condition.fill,
      Entry.conditionsAll, Entry.conditions, Operand.fill]
  · exact fun _ _ _ => rfl
  · intro h
    obtain ⟨hrender, -⟩ := (sql_accepts_iff hs _).1 h
    obtain ⟨v, hv, hne⟩ := hrender.items _ (hrank (.list [])) rfl
    cases hv
    exact hne rfl
  · intro h
    obtain ⟨-, hfull⟩ := (sql_accepts_iff hs _).1 h
    rw [hjoins] at hfull
    exact absurd (hfull _ List.mem_cons_self rfl) (by decide)

/-- **The document store accepts exactly what it can say.** It refuses a search
statement for what SQL refuses it for, for an aggregated condition or key, a join
that is neither inner nor left, and a pattern that is no text. A delete and an
update are refused for any clause beside their conditions, and an update besides
for a difference without an opposite number and a quotient without a reciprocal. -/
theorem document_accepts_iff (hs : s.IsSearch) :
    (∃ c, document.compile s values = .ok c) ↔
      s.Renderable values ∧ Document.Expressible s values :=
  Run.exists_map_eq_ok.trans (Document.exists_render_iff hs)

/-- An update with a quotient, and what it filters inside an operator. -/
def shared (extra : Entry) : Statement :=
  .update ⟨⟨"shop", "users"⟩,
    [.set ⟨.plain "credits", .prepared, some .divide⟩,
      .operation .or [.condition ⟨.like, ⟨.plain "name", none⟩, .prepared, none⟩, extra]]⟩

/-- It is accepted with a divisor and a pattern. A divisor of zero, a pattern that is
a number and a limit inside the operator are all refused. -/
theorem document_accepts_shared :
    (∃ c, document.compile (shared (.operation .not [])) [.int 2, .text "A%"] = .ok c) ∧
      (¬ ∃ c, document.compile (shared (.operation .not [])) [.int 0, .text "A%"] = .ok c) ∧
      (¬ ∃ c, document.compile (shared (.operation .not [])) [.int 2, .int 7] = .ok c) ∧
      ¬ ∃ c, document.compile (shared (.limit ⟨5, 0⟩)) [.int 2, .text "A%"] = .ok c := by
  have hs (extra : Entry) : (shared extra).IsSearch := trivial
  have hquotient (v : Value) :
      (⟨.plain "credits", .literal v, some .divide⟩ : Assignment) ∈ (Entry.partsAll
        ((shared (.operation .not [])).filled [v, .text "A%"])).assignments := List.mem_cons_self
  have hpattern (v : Value) : (⟨.like, ⟨.plain "name", none⟩, .literal v, none⟩ : Condition) ∈
      Entry.conditionsAll ((shared (.operation .not [])).filled [.int 2, v]) := List.mem_cons_self
  refine ⟨(document_accepts_iff (hs _)).2 ⟨⟨⟨?_, ?_⟩, Nat.zero_le 1, ?_, ?_, Nat.le_refl 2⟩, ?_⟩,
    ?_, ?_, ?_⟩
  · simp [Entry.Flat, Entry.parts, Entry.partsAll, Parts.none]
  · exact List.cons_ne_nil _ _
  · simp [shared, Statement.entries, Entry.conditionsAll, Entry.conditions, Condition.Bounded]
  · simp [shared, Statement.filled, Statement.entries, Entry.fillAll, Entry.fill, Condition.fill,
      Entry.conditionsAll, Entry.conditions]
  · have hparts : (Entry.partsAll (shared (.operation .not [])).entries).clauses = .none := rfl
    refine ⟨?_, ?_, ?_, ?_, ?_, fun _ => hparts, ?_, ?_⟩
    · simp [shared, Statement.entries, Entry.conditionsAll, Entry.conditions]
    · rintro k ⟨⟩
    · rintro t ⟨⟩
    · rintro j ⟨⟩
    · simp [shared, Statement.filled, Statement.entries, Entry.fillAll, Entry.fill,
        Condition.fill, Entry.conditionsAll, Entry.conditions, Operand.fill, Entry.markers,
        Operand.markers]
    · simp [shared, Statement.filled, Statement.entries, Entry.fillAll, Entry.fill,
        Assignment.fill, Entry.partsAll, Entry.parts, Parts.none]
    · simp [shared, Statement.filled, Statement.entries, Entry.fillAll, Entry.fill,
        Assignment.fill, Entry.partsAll, Entry.parts, Parts.none, Operand.fill, Value.IsDivisor]
  · intro h
    obtain ⟨-, hexpress⟩ := (document_accepts_iff (hs _)).1 h
    obtain ⟨v, hv, hdivisor⟩ := hexpress.divided _ (hquotient (.int 0)) rfl
    cases hv
    simp [Value.IsDivisor] at hdivisor
  · intro h
    obtain ⟨-, hexpress⟩ := (document_accepts_iff (hs _)).1 h
    obtain ⟨text, htext⟩ := hexpress.patterns _ (hpattern (.int 7)) rfl
    cases htext
  · intro h
    obtain ⟨-, hexpress⟩ := (document_accepts_iff (hs _)).1 h
    have hclauses := hexpress.filters trivial
    cases congrArg Parts.windows hclauses

end Language

end QueryLayer
