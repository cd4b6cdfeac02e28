import QueryLayer.Proofs.Meaning.Formula
import QueryLayer.Proofs.Walk.Run

/-!
# The meaning of entries

The meaning of a list of entries is a formula over its conditions: the list is
the conjunction of its operands, an operator is the conjunction or disjunction
of the operands inside it, a negation lends each of its operands, negated, to
the operator around it, and an operator without any condition adds nothing.

A walk turns conditions into tests and keeps this formula
(`collect_alike`): the predicates it yields have the same shape, and their
tests are the conditions with their values, in order.
-/

namespace QueryLayer

namespace OperationKind

variable {α β : Type} {R : α → β → Prop}

/-- What an operator makes of the formulas of its operands. -/
def group (kind : OperationKind) (fs : List (Formula α)) : List (Formula α) :=
  match kind with
  | .not => fs.map .not
  | .and => if fs.isEmpty then [] else [.all fs]
  | .or => if fs.isEmpty then [] else [.any fs]

/-- An operator over nothing is nothing. -/
theorem group_eq_nil_iff {kind : OperationKind} {fs : List (Formula α)} :
    kind.group fs = [] ↔ fs = [] := by
  cases kind <;> cases fs <;> simp [group]

/-- Operators keep formulas alike. -/
theorem group_alike (kind : OperationKind) {fs : List (Formula α)} {gs : List (Formula β)}
    (h : Formula.AlikeAll R fs gs) : Formula.AlikeAll R (kind.group fs) (kind.group gs) := by
  cases kind with
  | not => exact h.map_not
  | and =>
    cases hg : gs.isEmpty with
    | true => simp [group, h.isEmpty_eq, hg, Formula.AlikeAll]
    | false => simpa [group, h.isEmpty_eq, hg, Formula.AlikeAll, Formula.Alike] using h
  | or =>
    cases hg : gs.isEmpty with
    | true => simp [group, h.isEmpty_eq, hg, Formula.AlikeAll]
    | false => simpa [group, h.isEmpty_eq, hg, Formula.AlikeAll, Formula.Alike] using h

/-- Operators make no empty groups. -/
theorem group_full {P : α → Prop} (kind : OperationKind) {fs : List (Formula α)}
    (h : Formula.FullAll P fs) : Formula.FullAll P (kind.group fs) := by
  cases kind with
  | not => exact h.map_not
  | and =>
    cases fs with
    | nil => trivial
    | cons f fs => exact ⟨⟨by simp, h⟩, trivial⟩
  | or =>
    cases fs with
    | nil => trivial
    | cons f fs => exact ⟨⟨by simp, h⟩, trivial⟩

end OperationKind

namespace Entry

mutual

/-- The formulas an entry adds to the operands of the operator around it. -/
def formulas : Entry → List (Formula Condition)
  | .condition c => [.leaf c]
  | .operation kind es => kind.group (formulasAll es)
  | _ => []

/-- The formulas of several entries. -/
def formulasAll : List Entry → List (Formula Condition)
  | [] => []
  | e :: es => formulas e ++ formulasAll es

end

/-- The meaning of a list of entries. -/
def meaning (es : List Entry) : Formula Condition := .all (formulasAll es)

mutual

/-- An entry adds nothing exactly if it holds no condition. -/
theorem formulas_eq_nil_iff : ∀ e : Entry, formulas e = [] ↔ e.isPredicate = false
  | .condition _ => by simp [formulas, isPredicate]
  | .operation kind es => by
    rw [formulas, OperationKind.group_eq_nil_iff, isPredicate, formulasAll_eq_nil_iff es]
  | .join _ | .limit _ | .orderBy _ | .groupBy _ | .set _ => by simp [formulas, isPredicate]

/-- The same for several entries. -/
theorem formulasAll_eq_nil_iff : ∀ es : List Entry, formulasAll es = [] ↔ anyPredicate es = false
  | [] => by simp [formulasAll, anyPredicate]
  | e :: es => by
    simp [formulasAll, anyPredicate, formulas_eq_nil_iff e, formulasAll_eq_nil_iff es]

end

mutual

/-- No group in the meaning of an entry is empty. -/
theorem full_formulas : ∀ e : Entry, Formula.FullAll (fun _ => True) (formulas e)
  | .condition _ => ⟨trivial, trivial⟩
  | .operation kind es => by
    rw [formulas]
    exact kind.group_full (full_formulasAll es)
  | .join _ | .limit _ | .orderBy _ | .groupBy _ | .set _ => trivial

/-- The same for several entries. -/
theorem full_formulasAll : ∀ es : List Entry, Formula.FullAll (fun _ => True) (formulasAll es)
  | [] => trivial
  | e :: es => by
    rw [formulasAll]
    exact (full_formulas e).append (full_formulasAll es)

end

end Entry

namespace Predicate

mutual

/-- The formula of a predicate. -/
def formula : Predicate → Formula Test
  | .test t => .leaf t
  | .not p => .not (formula p)
  | .all ps => .all (formulas ps)
  | .any ps => .any (formulas ps)

/-- The formulas of several predicates. -/
def formulas : List Predicate → List (Formula Test)
  | [] => []
  | p :: ps => formula p :: formulas ps

end

theorem formulas_eq_map (ps : List Predicate) : formulas ps = ps.map formula := by
  induction ps with
  | nil => rfl
  | cons p ps ih => rw [formulas, List.map_cons, ih]

theorem formulas_append (ps qs : List Predicate) : formulas (ps ++ qs) = formulas ps ++ formulas qs := by
  simp [formulas_eq_map]

/-- The tests of several predicates, from left to right. -/
def tests (ps : List Predicate) : List Test := Formula.leavesAll (formulas ps)

/-- Operators act on predicates as they do on formulas. -/
theorem formulas_combine (kind : OperationKind) (ps : List Predicate) :
    formulas (kind.combine ps) = kind.group (formulas ps) := by
  cases kind with
  | not => simp [OperationKind.combine, OperationKind.group, formulas_eq_map, formula]
  | and => cases ps <;> simp [OperationKind.combine, OperationKind.group, formulas, formula]
  | or => cases ps <;> simp [OperationKind.combine, OperationKind.group, formulas, formula]

end Predicate

/-! ## From conditions to tests -/

/-- A list that the test compares with is not empty. -/
def Test.HasItems (t : Test) : Prop := ∀ vs, t.criterion = .oneOf vs → vs ≠ []

namespace Operand

/-- The operand can have the value: a literal has its own only. -/
def Gives : Operand → Value → Prop
  | .literal u, v => v = u
  | .prepared, _ => True

theorem gives_of_resolve {o : Operand} {s s' : Supply} {v : Value}
    (h : o.resolve s = .ok (v, s')) : o.Gives v := by
  cases o with
  | literal u =>
    rw [resolve_literal] at h
    cases h
    rfl
  | prepared => trivial

end Operand

namespace Condition

/-- The test is the condition with a value in the place of each operand that
is read. A list is never empty. -/
def Yields (c : Condition) (t : Test) : Prop :=
  t.target = c.target ∧
    match c.kind, t.criterion with
    | .equals, .equals v | .like, .like v | .lower, .lower v | .higher, .higher v => c.value.Gives v
    | .null, .null => True
    | .oneOf, .oneOf vs => vs ≠ [] ∧ ∃ v, c.value.Gives v ∧ vs = v.toItems
    | .between, .between l u => c.value.Gives l ∧ ∃ o, c.upperBound = some o ∧ o.Gives u
    | _, _ => False

theorem Yields.hasItems {c : Condition} {t : Test} (h : c.Yields t) : t.HasItems := by
  obtain ⟨target, criterion⟩ := t
  rintro vs rfl
  obtain ⟨-, h⟩ := h
  cases hk : c.kind with
  | oneOf =>
    simp only [hk] at h
    exact h.1
  | equals | like | lower | higher | null | between => simp [hk] at h

variable {w w' : Walk}

theorem gives_of_walk {o : Operand} {v : Value} (h : Walk.resolve o w = .ok (v, w')) : o.Gives v := by
  obtain ⟨u, s, hu, hr⟩ := Walk.resolve_eq_ok.1 h
  cases hr
  exact Operand.gives_of_resolve hu

/-- A condition yields its criterion. -/
theorem yields_of_criterion {statement : String} {c : Condition} {k : Criterion}
    (h : c.criterion statement w = .ok (k, w')) : c.Yields ⟨c.target, k⟩ := by
  refine ⟨rfl, ?_⟩
  cases hk : c.kind with
  | null =>
    simp only [criterion, hk] at h
    cases Run.pure_eq_ok.1 h
    trivial
  | oneOf =>
    simp only [criterion, hk] at h
    obtain ⟨v, m, hv, h⟩ := Run.bind_eq_ok.1 h
    by_cases hempty : v.toItems.isEmpty
    · rw [if_pos hempty] at h
      exact absurd h Walk.stop_ne_ok
    · rw [if_neg hempty] at h
      cases Run.pure_eq_ok.1 h
      exact ⟨by simpa using hempty, v, gives_of_walk hv, rfl⟩
  | between =>
    cases hu : c.upperBound with
    | none =>
      simp only [criterion, hk, hu] at h
      exact absurd h Walk.stop_ne_ok
    | some upper =>
      simp only [criterion, hk, hu] at h
      obtain ⟨l, m, hl, h⟩ := Run.bind_eq_ok.1 h
      obtain ⟨u, m', hu', h⟩ := Run.bind_eq_ok.1 h
      cases Run.pure_eq_ok.1 h
      exact ⟨gives_of_walk hl, upper, rfl, gives_of_walk hu'⟩
  | equals | like | lower | higher =>
    simp only [criterion, hk] at h
    obtain ⟨v, m, hv, h⟩ := Run.bind_eq_ok.1 h
    cases Run.pure_eq_ok.1 h
    exact gives_of_walk hv

theorem yields_of_resolveTest {r : Rules} {c : Condition} {t : Test}
    (h : c.resolveTest r w = .ok (t, w')) : c.Yields t := by
  rw [resolveTest] at h
  obtain ⟨-, m, -, h⟩ := Run.bind_eq_ok.1 h
  obtain ⟨k, m', hk, h⟩ := Run.bind_eq_ok.1 h
  obtain ⟨-, m'', -, h⟩ := Run.bind_eq_ok.1 h
  cases Run.pure_eq_ok.1 h
  exact yields_of_criterion hk

end Condition

/-! ## The walk keeps the meaning -/

namespace Entry

open Formula

variable {r : Rules}

mutual

/-- **The predicates of an entry have its formulas**, each condition with its
test in its place. -/
theorem collect_alike : ∀ {e : Entry} {w w' : Walk} {ps : List Predicate},
    collect r e w = .ok (ps, w') → AlikeAll Condition.Yields (formulas e) (Predicate.formulas ps)
  | .condition c, w, w', ps, h => by
    rw [collect] at h
    obtain ⟨t, m, ht, h⟩ := Run.bind_eq_ok.1 h
    cases Run.pure_eq_ok.1 h
    simpa [formulas, Predicate.formulas, Predicate.formula, AlikeAll, Alike]
      using Condition.yields_of_resolveTest ht
  | .operation kind es, w, w', ps, h => by
    rw [collect] at h
    obtain ⟨qs, m, hqs, h⟩ := Run.bind_eq_ok.1 h
    cases Run.pure_eq_ok.1 h
    rw [formulas, Predicate.formulas_combine]
    exact kind.group_alike (collectAll_alike hqs)
  -- the other entries change the clauses and yield no predicate
  | .join j, w, w', ps, h => by
    rw [collect] at h
    obtain ⟨-, m, -, h⟩ := Run.bind_eq_ok.1 h
    obtain ⟨-, m', -, h⟩ := Run.bind_eq_ok.1 h
    cases Run.pure_eq_ok.1 h
    simp [formulas, Predicate.formulas, AlikeAll]
  | .limit v, w, w', ps, h => by
    rw [collect] at h
    obtain ⟨-, m, -, h⟩ := Run.bind_eq_ok.1 h
    cases Run.pure_eq_ok.1 h
    simp [formulas, Predicate.formulas, AlikeAll]
  | .orderBy k, w, w', ps, h => by
    rw [collect] at h
    obtain ⟨-, m, -, h⟩ := Run.bind_eq_ok.1 h
    obtain ⟨-, m', -, h⟩ := Run.bind_eq_ok.1 h
    cases Run.pure_eq_ok.1 h
    simp [formulas, Predicate.formulas, AlikeAll]
  | .groupBy t, w, w', ps, h => by
    rw [collect] at h
    obtain ⟨-, m, -, h⟩ := Run.bind_eq_ok.1 h
    obtain ⟨-, m', -, h⟩ := Run.bind_eq_ok.1 h
    cases Run.pure_eq_ok.1 h
    simp [formulas, Predicate.formulas, AlikeAll]
  | .set a, w, w', ps, h => by
    rw [collect] at h
    exact absurd h Walk.stop_ne_ok

/-- The same for several entries. -/
theorem collectAll_alike : ∀ {es : List Entry} {w w' : Walk} {ps : List Predicate},
    collectAll r es w = .ok (ps, w') →
      AlikeAll Condition.Yields (formulasAll es) (Predicate.formulas ps)
  | [], w, w', ps, h => by
    rw [collectAll] at h
    cases Run.pure_eq_ok.1 h
    simp [formulasAll, Predicate.formulas, AlikeAll]
  | e :: es, w, w', ps, h => by
    rw [collectAll] at h
    obtain ⟨qs, m, hqs, h⟩ := Run.bind_eq_ok.1 h
    obtain ⟨qs', m', hqs', h⟩ := Run.bind_eq_ok.1 h
    cases Run.pure_eq_ok.1 h
    rw [formulasAll, Predicate.formulas_append]
    exact (collect_alike hqs).append (collectAll_alike hqs')

end

/-- A walk that assigns keeps the meaning of what it does not assign. -/
theorem collectChanges_alike {α : Type} {assign : Assignment → Walk.Step α} :
    ∀ {es : List Entry} {w w' : Walk} {xs : List α} {ps : List Predicate},
      collectChanges r assign es w = .ok ((xs, ps), w') →
        AlikeAll Condition.Yields (formulasAll es) (Predicate.formulas ps) := by
  intro es
  induction es with
  | nil =>
    intro w w' xs ps h
    rw [collectChanges] at h
    cases Run.pure_eq_ok.1 h
    simp [formulasAll, Predicate.formulas, AlikeAll]
  | cons e es ih =>
    intro w w' xs ps h
    cases e with
    | set a =>
      rw [collectChanges] at h
      obtain ⟨x, m, -, h⟩ := Run.bind_eq_ok.1 h
      obtain ⟨⟨ys, qs⟩, m', hqs, h⟩ := Run.bind_eq_ok.1 h
      cases Run.pure_eq_ok.1 h
      simpa [formulasAll, formulas] using ih hqs
    | condition _ | operation _ _ | join _ | limit _ | orderBy _ | groupBy _ =>
      rw [collectChanges] at h
      · obtain ⟨qs, m, hqs, h⟩ := Run.bind_eq_ok.1 h
        obtain ⟨⟨ys, qs'⟩, m', hqs', h⟩ := Run.bind_eq_ok.1 h
        cases Run.pure_eq_ok.1 h
        rw [formulasAll, Predicate.formulas_append]
        exact (collect_alike hqs).append (ih hqs')
      · rintro a ⟨⟩

end Entry

namespace Plan

variable {r : Rules} {es : List Entry} {values : List Value} {p : Plan}

/-- The plan is that of a search over the entries, or of a statement that
assigns as well. -/
def IsOf (r : Rules) (es : List Entry) (values : List Value) (p : Plan) : Prop :=
  ofEntries r es values = .ok p ∨
    ∃ (α : Type) (assign : Assignment → Walk.Step α) (xs : List α),
      ofChanges r assign es values = .ok (xs, p)

/-- **The predicates of a plan have the formulas of its entries.** -/
theorem IsOf.alike (h : p.IsOf r es values) :
    Formula.AlikeAll Condition.Yields (Entry.formulasAll es) (Predicate.formulas p.predicates) := by
  rcases h with h | ⟨α, assign, xs, h⟩
  · obtain ⟨⟨ps, w⟩, hw, rfl⟩ := Run.outcome_map_eq_ok.1 h
    exact Entry.collectAll_alike hw
  · obtain ⟨⟨⟨ys, ps⟩, w⟩, hw, hp⟩ := Run.outcome_map_eq_ok.1 h
    cases hp
    exact Entry.collectChanges_alike hw

/-- No group in a plan is empty, and no list that a test compares with. -/
theorem IsOf.full (h : p.IsOf r es values) :
    Formula.FullAll Test.HasItems (Predicate.formulas p.predicates) :=
  h.alike.full (fun _ _ hy _ => hy.hasItems) (Entry.full_formulasAll es)

/-- A plan has predicates if the entries hold a condition. -/
theorem IsOf.predicates_eq_nil_iff (h : p.IsOf r es values) :
    p.predicates = [] ↔ Entry.anyPredicate es = false := by
  rw [← Entry.formulasAll_eq_nil_iff]
  have hempty := h.alike.isEmpty_eq
  cases hp : p.predicates with
  | nil => simpa [hp, Predicate.formulas] using hempty
  | cons q qs => simpa [hp, Predicate.formulas] using hempty

end Plan

end QueryLayer
