import QueryLayer.Proofs.Walk.Resolve
import QueryLayer.Proofs.Walk.Substitution

/-!
# Steps without markers

A step over operands that are values takes nothing from the supply and leaves the
walk as it is, so it is known by what it can yield (`Still`), and steps in a row are
known by what each of them can yield. A condition without markers yields its test,
and formulas yield the predicates of their shape over the tests that a back end
accepts (`Formula.still_resolveAll`).
-/

namespace QueryLayer

open Walk

/-! ## Related lists -/

section Lists

variable {α β : Type} {S : β → α → Prop} {xs ys : List β} {zs : List α}

/-- What is related to two lists in a row is two lists in a row. -/
theorem forall₂_append_left_iff : List.Forall₂ S (xs ++ ys) zs ↔
    ∃ us vs, zs = us ++ vs ∧ List.Forall₂ S xs us ∧ List.Forall₂ S ys vs := by
  constructor
  · intro h
    have hfirst := List.forall₂_take xs.length h
    have hsecond := List.forall₂_drop xs.length h
    rw [List.take_left] at hfirst
    rw [List.drop_left] at hsecond
    exact ⟨_, _, (List.take_append_drop xs.length zs).symm, hfirst, hsecond⟩
  · rintro ⟨us, vs, rfl, hus, hvs⟩
    exact List.rel_append hus hvs

/-- A list is related to some list if each of its items is to something. -/
theorem exists_forall₂_iff : (∃ zs, List.Forall₂ S xs zs) ↔ ∀ x ∈ xs, ∃ z, S x z := by
  induction xs with
  | nil => simp
  | cons x xs ih =>
    rw [List.forall_mem_cons, ← ih]
    constructor
    · rintro ⟨zs, h⟩
      obtain ⟨z, zs, hz, hzs, rfl⟩ := List.forall₂_cons_left_iff.1 h
      exact ⟨⟨z, hz⟩, ⟨zs, hzs⟩⟩
    · rintro ⟨⟨z, hz⟩, ⟨zs, hzs⟩⟩
      exact ⟨z :: zs, .cons hz hzs⟩

end Lists

/-! ## Steps without markers -/

theorem Operand.gives_iff_eq_literal {o : Operand} (ho : o.markers = 0) {v : Value} :
    o.Gives v ↔ o = .literal v := by
  cases o with
  | prepared => simp [markers] at ho
  | literal u => simp [Gives, eq_comm]

namespace Walk

variable {α β : Type} {x : Step α} {f : α → Step β} {P : α → Prop} {Q : α → β → Prop}

/-- The step leaves the walk as it is, and yields what satisfies `P` and nothing
else. -/
def Still (x : Step α) (P : α → Prop) : Prop := ∀ w r, x w = .ok r ↔ P r.1 ∧ r.2 = w

namespace Still

theorem congr {P' : α → Prop} (hx : Still x P) (h : ∀ a, P a ↔ P' a) : Still x P' := by
  intro w r
  rw [hx w r, h]

theorem pure (a : α) : Still (Pure.pure a) (· = a) := by
  intro w r
  rw [Run.pure_eq_ok, Prod.mk.injEq]
  exact ⟨fun h => ⟨h.1.symm, h.2.symm⟩, fun h => ⟨h.1.symm, h.2.symm⟩⟩

theorem bind (hx : Still x P) (hf : ∀ a, Still (f a) (Q a)) :
    Still (x >>= f) fun b => ∃ a, P a ∧ Q a b := by
  intro w r
  rw [Run.bind_eq_ok]
  constructor
  · rintro ⟨a, m, ha, hb⟩
    obtain ⟨hP, rfl⟩ := (hx _ _).1 ha
    obtain ⟨hQ, hr⟩ := (hf a _ _).1 hb
    exact ⟨⟨a, hP, hQ⟩, hr⟩
  · rintro ⟨⟨a, hP, hQ⟩, hr⟩
    exact ⟨a, w, (hx _ _).2 ⟨hP, rfl⟩, (hf a _ _).2 ⟨hQ, hr⟩⟩

/-- What is made of the value. -/
theorem bind_pure {g : α → β} (hx : Still x P) :
    Still (do return g (← x)) fun b => ∃ a, P a ∧ b = g a :=
  hx.bind fun a => Still.pure (g a)

theorem stop (e : QueryError) : Still (Walk.stop e : Step α) fun _ => False := by
  intro w r
  exact ⟨fun h => absurd h stop_ne_ok, fun h => h.1.elim⟩

theorem check (c : Except QueryError Unit) : Still (Walk.check c) fun _ => c = .ok () := by
  intro w r
  rw [check_eq_ok, Prod.ext_iff]
  exact ⟨fun h => ⟨h.1, h.2.2.symm⟩, fun h => ⟨h.1, rfl, h.2.symm⟩⟩

theorem lift (o : Except QueryError α) : Still (liftM o : Step α) fun a => o = .ok a := by
  intro w r
  cases o with
  | error e =>
    constructor
    · intro h
      cases h
    · rintro ⟨h, -⟩
      cases h
  | ok a =>
    change Except.ok (a, w) = .ok r ↔ _
    simp only [Except.ok.injEq, Prod.ext_iff]
    exact ⟨fun h => ⟨h.1, h.2.symm⟩, fun h => ⟨h.1, h.2.symm⟩⟩

/-- Without a marker an operand is its value. -/
theorem resolve {o : Operand} (ho : o.markers = 0) : Still (Walk.resolve o) o.Gives := by
  intro w r
  cases o with
  | prepared => simp [Operand.markers] at ho
  | literal v =>
    simp only [resolve_eq_ok, Operand.resolve_literal, Except.ok.injEq, Prod.ext_iff]
    constructor
    · rintro ⟨u, s, ⟨rfl, rfl⟩, hu, hw⟩
      exact ⟨hu.symm, hw.symm⟩
    · rintro ⟨hv, hw⟩
      exact ⟨v, w.supply, ⟨rfl, rfl⟩, hv.symm, hw.symm⟩

end Still

end Walk

namespace Condition

/-- The criteria of a condition without markers are those it yields. -/
theorem still_criterion (statement : String) {c : Condition} (hc : c.markers = 0) :
    Still (c.criterion statement) fun k => c.Yields ⟨c.target, k⟩ := by
  obtain ⟨kind, target, value, upper⟩ := c
  cases kind with
  | equals => exact (Still.resolve hc).bind_pure.congr fun k => by cases k <;> simp [Yields]
  | like => exact (Still.resolve hc).bind_pure.congr fun k => by cases k <;> simp [Yields]
  | lower => exact (Still.resolve hc).bind_pure.congr fun k => by cases k <;> simp [Yields]
  | higher => exact (Still.resolve hc).bind_pure.congr fun k => by cases k <;> simp [Yields]
  | null => exact (Still.pure _).congr fun k => by cases k <;> simp [Yields]
  | oneOf =>
    have hitems (v : Value) : Still
        (if v.toItems.isEmpty then stop (.emptyInList target.field.display)
          else return Criterion.oneOf v.toItems)
        fun k => v.toItems ≠ [] ∧ k = .oneOf v.toItems := by
      by_cases hempty : v.toItems.isEmpty
      · rw [if_pos hempty]
        exact (Still.stop _).congr fun k => by simp [List.isEmpty_iff.1 hempty]
      · rw [if_neg hempty]
        exact (Still.pure _).congr fun k => by simpa [List.isEmpty_iff] using fun _ => hempty
    refine ((Still.resolve hc).bind hitems).congr fun k => ?_
    cases k with
    | oneOf vs =>
      constructor
      · rintro ⟨v, hv, hne, hvs⟩
        cases hvs
        exact ⟨rfl, hne, v, hv, rfl⟩
      · rintro ⟨-, hne, v, hv, rfl⟩
        exact ⟨v, hv, hne, rfl⟩
    | equals _ | like _ | lower _ | higher _ | null | between _ _ => simp [Yields]
  | between =>
    cases upper with
    | none => exact (Still.stop _).congr fun k => by cases k <;> simp [Yields]
    | some o =>
      -- neither of the two bounds has a marker
      have hmarkers : value.markers + o.markers = 0 := hc
      have hvalue : Still (resolve value) value.Gives := .resolve (by omega)
      have hupper : Still (resolve o) o.Gives := .resolve (by omega)
      refine (hvalue.bind fun l => hupper.bind_pure).congr fun k => ?_
      cases k <;> simp [Yields]

/-- A condition without markers yields one test. -/
theorem Yields.unique {c : Condition} (hc : c.markers = 0) {t t' : Test} (h : c.Yields t)
    (h' : c.Yields t') : t = t' := by
  obtain ⟨target, k⟩ := t
  obtain ⟨target', k'⟩ := t'
  obtain rfl : target = c.target := h.1
  obtain rfl : target' = c.target := h'.1
  -- both criteria are what the one walk over the condition ends with
  have hstill := still_criterion "" hc (Walk.start [])
  have hrun := ((hstill (k, _)).2 ⟨h, rfl⟩).symm.trans ((hstill (k', _)).2 ⟨h', rfl⟩)
  cases hrun
  rfl

theorem Yields.unique_all {cs : List Condition} (hcs : ∀ c ∈ cs, c.markers = 0) {ts ts' : List Test}
    (h : List.Forall₂ Yields cs ts) (h' : List.Forall₂ Yields cs ts') : ts = ts' := by
  induction h generalizing ts' with
  | nil => exact (List.forall₂_nil_left_iff.1 h').symm
  | cons hyields _ ih =>
    obtain ⟨hc, hcs⟩ := List.forall_mem_cons.1 hcs
    obtain ⟨t', ts', hyields', hrest, rfl⟩ := List.forall₂_cons_left_iff.1 h'
    rw [hyields.unique hc hyields', ih hcs hrest]

end Condition

/-- The back end accepts the condition, and the test it becomes. -/
def Rules.Admits (r : Rules) (c : Condition) (t : Test) : Prop :=
  r.condition c = .ok () ∧ c.Yields t ∧ r.test t = .ok ()

theorem Condition.still_resolveTest (r : Rules) {c : Condition} (hc : c.markers = 0) :
    Still (c.resolveTest r) (r.Admits c) := by
  have htest (k : Criterion) := (Still.check (r.test ⟨c.target, k⟩)).bind
    fun _ => Still.pure (⟨c.target, k⟩ : Test)
  refine ((Still.check _).bind fun _ => (Condition.still_criterion _ hc).bind htest).congr
    fun t => ?_
  -- the test has the target of its condition, so its criterion says what it is
  constructor
  · rintro ⟨-, hcondition, k, hk, -, hok, rfl⟩
    exact ⟨hcondition, hk, hok⟩
  · rintro ⟨hcondition, hyields, hok⟩
    obtain ⟨target, k⟩ := t
    obtain rfl : target = c.target := hyields.1
    exact ⟨(), hcondition, k, hyields, (), hok, rfl⟩

namespace Formula

variable {r : Rules}

mutual

/-- **A formula without markers** becomes the predicates of its shape over the
tests that the back end accepts. -/
theorem still_resolve (r : Rules) : ∀ {f : Formula Condition}, (∀ c ∈ f.leaves, c.markers = 0) →
    Still (resolve r f) fun p => f.Alike r.Admits p.formula
  | .leaf c, h => by
    rw [resolve]
    have hc : c.markers = 0 := h c (by simp [leaves])
    refine (Condition.still_resolveTest r hc).bind_pure.congr fun p => ?_
    cases p <;> simp [Predicate.formula, Alike]
  | .not f, h => by
    rw [resolve]
    rw [leaves] at h
    refine (still_resolve r h).bind_pure.congr fun p => ?_
    cases p <;> simp [Predicate.formula, Alike]
  | .all fs, h => by
    rw [resolve]
    rw [leaves] at h
    refine (still_resolveAll r h).bind_pure.congr fun p => ?_
    cases p <;> simp [Predicate.formula, Alike]
  | .any fs, h => by
    rw [resolve]
    rw [leaves] at h
    refine (still_resolveAll r h).bind_pure.congr fun p => ?_
    cases p <;> simp [Predicate.formula, Alike]

/-- The same for several formulas. -/
theorem still_resolveAll (r : Rules) : ∀ {fs : List (Formula Condition)},
    (∀ c ∈ leavesAll fs, c.markers = 0) →
      Still (resolveAll r fs) fun ps => AlikeAll r.Admits fs (Predicate.formulas ps)
  | [], _ => by
    rw [resolveAll]
    refine (Still.pure _).congr fun ps => ?_
    cases ps <;> simp [Predicate.formulas, AlikeAll]
  | f :: fs, h => by
    rw [resolveAll]
    rw [leavesAll, List.forall_mem_append] at h
    refine ((still_resolve r h.1).bind fun p => (still_resolveAll r h.2).bind_pure).congr
      fun ps => ?_
    cases ps <;> simp [Predicate.formulas, AlikeAll]

end

variable {α : Type} {R : α → Test → Prop}

mutual

/-- There are predicates of any shape, if there are tests for its leaves. -/
theorem exists_alike : ∀ {f : Formula α}, (∀ a ∈ f.leaves, ∃ t, R a t) →
    ∃ p : Predicate, f.Alike R p.formula
  | .leaf a, h => by
    obtain ⟨t, ht⟩ := h a (by simp [leaves])
    exact ⟨.test t, by rwa [Predicate.formula, Alike]⟩
  | .not f, h => by
    rw [leaves] at h
    obtain ⟨p, hp⟩ := exists_alike h
    exact ⟨.not p, by rwa [Predicate.formula, Alike]⟩
  | .all fs, h => by
    rw [leaves] at h
    obtain ⟨ps, hps⟩ := exists_alikeAll h
    exact ⟨.all ps, by rwa [Predicate.formula, Alike]⟩
  | .any fs, h => by
    rw [leaves] at h
    obtain ⟨ps, hps⟩ := exists_alikeAll h
    exact ⟨.any ps, by rwa [Predicate.formula, Alike]⟩

/-- The same for several formulas. -/
theorem exists_alikeAll : ∀ {fs : List (Formula α)}, (∀ a ∈ leavesAll fs, ∃ t, R a t) →
    ∃ ps : List Predicate, AlikeAll R fs (Predicate.formulas ps)
  | [], _ => ⟨[], trivial⟩
  | f :: fs, h => by
    rw [leavesAll, List.forall_mem_append] at h
    obtain ⟨p, hp⟩ := exists_alike h.1
    obtain ⟨ps, hps⟩ := exists_alikeAll h.2
    exact ⟨p :: ps, hp, hps⟩

end

theorem exists_alikeAll_iff {fs : List (Formula α)} :
    (∃ ps : List Predicate, AlikeAll R fs (Predicate.formulas ps)) ↔
      ∀ a ∈ leavesAll fs, ∃ t, R a t := by
  refine ⟨?_, exists_alikeAll⟩
  rintro ⟨ps, hps⟩
  exact exists_forall₂_iff.1 ⟨_, hps.forall₂_leavesAll⟩

/-- Predicates for formulas in a row are predicates in a row. -/
theorem alikeAll_append_iff {fs gs : List (Formula α)} {ps : List Predicate} :
    AlikeAll R (fs ++ gs) (Predicate.formulas ps) ↔ ∃ qs qs', ps = qs ++ qs' ∧
      AlikeAll R fs (Predicate.formulas qs) ∧ AlikeAll R gs (Predicate.formulas qs') := by
  constructor
  · intro h
    induction fs generalizing ps with
    | nil => exact ⟨[], ps, rfl, trivial, h⟩
    | cons f fs ih =>
      cases ps with
      | nil => exact h.elim
      | cons p ps =>
        obtain ⟨hp, hps⟩ := h
        obtain ⟨qs, qs', rfl, hqs, hqs'⟩ := ih hps
        exact ⟨p :: qs, qs', rfl, ⟨hp, hqs⟩, hqs'⟩
  · rintro ⟨qs, qs', rfl, hqs, hqs'⟩
    rw [Predicate.formulas_append]
    exact hqs.append hqs'

end Formula

end QueryLayer
