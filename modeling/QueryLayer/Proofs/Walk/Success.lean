import QueryLayer.Proofs.Walk.Filled
import QueryLayer.Proofs.Walk.Still
import QueryLayer.Proofs.Walk.Substitutes

/-!
# When there is a plan

With the runtime values in their places it is known what the plan of entries is:
its predicates have the meaning of the filled entries, and its clauses are their
parts (`Plan.ofEntries_eq_ok`, `Plan.ofChanges_eq_ok`). So there is a plan if there
is a value for each marker, each condition becomes a test that the back end accepts,
no clause is refused, there is one window at most, and each assignment can be made
(`Plan.exists_ofEntries_iff`, `Plan.exists_ofChanges_iff`).
-/

namespace QueryLayer

open Walk

/-! ## Statements that assign -/

section Assigns

variable {α : Type} {r : Rules} {assign : Assignment → Step α} {R : Assignment → α → Prop}

/-- A back end makes of an assignment what `R` says, once its value is known, and
looks at no clause. -/
structure Assigns (assign : Assignment → Step α) (R : Assignment → α → Prop) : Prop where
  takes : ∀ a, Takes Walk.mk a.value.markers (assign a) fun vs => assign (a.fill vs)
  clauseFree : ∀ a, ClauseFree (assign a)
  still : ∀ a, a.value.markers = 0 → Still (assign a) (R a)

namespace Entry

theorem still_resolveChange (h : Assigns assign R) (r : Rules) {e : Entry} (hflat : e.Flat)
    (hmarkers : e.markers = 0) : Still (resolveChange r assign e) fun x =>
      List.Forall₂ R e.parts.assignments x.1 ∧
        Formula.AlikeAll r.Admits e.formulas (Predicate.formulas x.2) := by
  cases e with
  | set a =>
    refine (h.still a hmarkers).bind_pure.congr fun x => ?_
    obtain ⟨xs, ps⟩ := x
    constructor
    · rintro ⟨y, hy, hx⟩
      cases hx
      exact ⟨.cons hy .nil, trivial⟩
    · rintro ⟨hxs, hps⟩
      obtain ⟨y, ys, hy, hys, rfl⟩ := List.forall₂_cons_left_iff.1 hxs
      cases hys
      cases ps with
      | nil => exact ⟨y, hy, rfl⟩
      | cons p ps => exact hps.elim
  | condition _ | operation _ _ | join _ | limit _ | orderBy _ | groupBy _ =>
    -- any other entry is its meaning, and assigns nothing
    have hleaves := ((markers_eq_zero_iff _).1 hmarkers).1
    rw [← leavesAll_formulas] at hleaves
    refine (Formula.still_resolveAll r hleaves).bind_pure.congr fun x => ?_
    obtain ⟨xs, ps⟩ := x
    have hnone : (parts _).assignments = [] := hflat
    rw [hnone, List.forall₂_nil_left_iff]
    constructor
    · rintro ⟨qs, hqs, hx⟩
      cases hx
      exact ⟨rfl, hqs⟩
    · rintro ⟨rfl, hps⟩
      exact ⟨ps, hps, rfl⟩

/-- **Entries without markers** become the changes of their assignments and the
predicates of their meaning. -/
theorem still_resolveChanges (h : Assigns assign R) (r : Rules) {es : List Entry}
    (hflat : ∀ e ∈ es, e.Flat) (hmarkers : markersAll es = 0) :
    Still (resolveChanges r assign es) fun x =>
      List.Forall₂ R (partsAll es).assignments x.1 ∧
        Formula.AlikeAll r.Admits (formulasAll es) (Predicate.formulas x.2) := by
  induction es with
  | nil =>
    refine (Still.pure _).congr fun x => ?_
    obtain ⟨xs, ps⟩ := x
    cases xs <;> cases ps <;> simp [partsAll, Parts.none, formulasAll, Predicate.formulas,
      Formula.AlikeAll]
  | cons e es ih =>
    obtain ⟨he, hes⟩ := List.forall_mem_cons.1 hflat
    obtain ⟨hhead, htail⟩ := Nat.add_eq_zero_iff.1 hmarkers
    refine ((still_resolveChange h r he hhead).bind fun x =>
      (ih hes htail).bind_pure (g := fun y => (x.1 ++ y.1, x.2 ++ y.2))).congr fun z => ?_
    obtain ⟨zs, rs⟩ := z
    rw [partsAll, Parts.assignments_append, formulasAll, forall₂_append_left_iff,
      Formula.alikeAll_append_iff]
    constructor
    · rintro ⟨⟨xs, ps⟩, ⟨hxs, hps⟩, ⟨ys, qs⟩, ⟨hys, hqs⟩, hz⟩
      cases hz
      exact ⟨⟨xs, ys, rfl, hxs, hys⟩, ⟨ps, qs, rfl, hps, hqs⟩⟩
    · rintro ⟨⟨xs, ys, rfl, hxs, hys⟩, ⟨ps, qs, rfl, hps, hqs⟩⟩
      exact ⟨(xs, ps), ⟨hxs, hps⟩, (ys, qs), ⟨hys, hqs⟩, rfl⟩

end Entry

end Assigns

/-! ## Plans -/

theorem Walk.gathers_still {α : Type} {r : Rules} {x : Step α} {P : α → Prop} {p : Parts}
    {w w' : Walk} {a : α} (hx : Still x P) :
    Gathers r x p w a w' ↔ P a ∧ w'.supply = w.supply ∧ p.Grows r w.clauses w'.clauses := by
  obtain ⟨s, c⟩ := w
  rw [Gathers, hx, and_assoc]
  simp

/-- Clauses are gathered from the start, if none of them is refused and there is
one window at most. -/
theorem Parts.exists_grows_iff {r : Rules} {p : Parts} :
    (∃ c, p.Grows r .none c) ↔ p.Passes r ∧ p.windows.length ≤ 1 := by
  constructor
  · rintro ⟨c, h⟩
    have hwindow : c.window.toList = p.windows := h.window
    refine ⟨h.passes, ?_⟩
    rw [← hwindow]
    cases c.window <;> simp
  · rintro ⟨hpasses, hlength⟩
    have hwindow : p.windows.head?.toList = p.windows := by
      match hp : p.windows, hlength with
      | [], _ => rfl
      | [v], _ => rfl
    exact ⟨⟨p.joins, p.groups, p.sorts, p.windows.head?⟩, hpasses, rfl, rfl, rfl, hwindow⟩

/-- Assignments play no role for the clauses. -/
theorem Parts.grows_clauses {r : Rules} {p : Parts} {c c' : Clauses} :
    p.clauses.Grows r c c' ↔ p.Grows r c c' :=
  ⟨fun h => ⟨⟨h.passes.join, h.passes.groupKey, h.passes.sortKey⟩, h.joins, h.groups, h.sorts,
      h.window⟩,
    fun h => ⟨⟨h.passes.join, h.passes.groupKey, h.passes.sortKey⟩, h.joins, h.groups, h.sorts,
      h.window⟩⟩

/-- An outcome that depends on its markers succeeds where they have values. -/
theorem Substitutes.eq_ok_iff {α : Type} {m : ℕ} {outcome filled : List Value → Except QueryError α}
    (h : Substitutes m outcome filled) {values : List Value} {a : α} :
    outcome values = .ok a ↔ m ≤ values.length ∧ filled values = .ok a := by
  rcases Nat.lt_or_ge values.length m with hlt | hm
  · -- a marker goes without, so there is an error whatever else is wrong
    obtain ⟨e, he, -⟩ := h.starves values hlt
    rw [he]
    constructor
    · intro hok
      cases hok
    · rintro ⟨hm, -⟩
      exact absurd hm (by omega)
  · rw [h.fills values hm]
    exact (and_iff_right hm).symm

namespace Plan

variable {α : Type} {r : Rules} {es : List Entry} {values : List Value} {p : Plan}
  {assign : Assignment → Step α} {R : Assignment → α → Prop}

/-- The plan of entries without markers. -/
theorem ofEntries_of_no_markers (hes : Entry.markersAll es = 0) :
    ofEntries r es values = .ok p ↔ (Entry.partsAll es).assignments = [] ∧
      Formula.AlikeAll r.Admits (Entry.formulasAll es) (Predicate.formulas p.predicates) ∧
      (Entry.partsAll es).Grows r .none p.toClauses := by
  have hleaves := ((Entry.markersAll_eq_zero_iff es).1 hes).1
  rw [← Entry.leavesAll_formulasAll] at hleaves
  have hgathers (ps : List Predicate) (w : Walk) :
      Gathers r (Formula.resolveAll r (Entry.formulasAll es)) (Entry.partsAll es)
        (Walk.start values) ps w ↔ _ :=
    gathers_still (Formula.still_resolveAll r hleaves)
  rw [ofEntries, Run.outcome_map_eq_ok]
  constructor
  · rintro ⟨⟨ps, w⟩, hw, rfl⟩
    obtain ⟨hset, hrun⟩ := Entry.collectAll_eq_ok.1 hw
    obtain ⟨hps, -, hgrows⟩ := (hgathers ps w).1 hrun
    exact ⟨hset, hps, hgrows⟩
  · rintro ⟨hset, hps, hgrows⟩
    refine ⟨(p.predicates, ⟨(Walk.start values).supply, p.toClauses⟩), ?_, rfl⟩
    exact Entry.collectAll_eq_ok.2 ⟨hset, (hgathers _ _).2 ⟨hps, rfl, hgrows⟩⟩

/-- The plan of entries that assign, without markers. -/
theorem ofChanges_of_no_markers (h : Assigns assign R) (hes : Entry.markersAll es = 0)
    {xs : List α} :
    ofChanges r assign es values = .ok (xs, p) ↔ (∀ e ∈ es, e.Flat) ∧
      List.Forall₂ R (Entry.partsAll es).assignments xs ∧
      Formula.AlikeAll r.Admits (Entry.formulasAll es) (Predicate.formulas p.predicates) ∧
      (Entry.partsAll es).Grows r .none p.toClauses := by
  have hgathers (hflat : ∀ e ∈ es, e.Flat) (x : List α × List Predicate) (w : Walk) :
      Gathers r (Entry.resolveChanges r assign es) (Entry.partsAll es) (Walk.start values) x w ↔ _ :=
    gathers_still (Entry.still_resolveChanges h r hflat hes)
  rw [ofChanges, Run.outcome_map_eq_ok]
  constructor
  · rintro ⟨⟨x, w⟩, hw, hp⟩
    cases hp
    obtain ⟨hflat, hrun⟩ := (Entry.collectChanges_eq_ok h.clauseFree).1 hw
    obtain ⟨⟨hxs, hps⟩, -, hgrows⟩ := (hgathers hflat x w).1 hrun
    exact ⟨hflat, hxs, hps, hgrows⟩
  · rintro ⟨hflat, hxs, hps, hgrows⟩
    refine ⟨((xs, p.predicates), ⟨(Walk.start values).supply, p.toClauses⟩), ?_, rfl⟩
    exact (Entry.collectChanges_eq_ok h.clauseFree).2
      ⟨hflat, (hgathers hflat _ _).2 ⟨⟨hxs, hps⟩, rfl, hgrows⟩⟩

/-- **What the plan of entries is.** Its predicates have the meaning of the filled
entries, and its clauses are the parts of the entries. -/
theorem ofEntries_eq_ok (hr : r.Blind) :
    ofEntries r es values = .ok p ↔ Entry.markersAll es ≤ values.length ∧
      (Entry.partsAll es).assignments = [] ∧
      Formula.AlikeAll r.Admits (Entry.formulasAll (Entry.fillAll values es))
        (Predicate.formulas p.predicates) ∧
      (Entry.partsAll es).Grows r .none p.toClauses := by
  rw [(substitutes_ofEntries hr es).eq_ok_iff]
  refine and_congr_right fun hmarkers => ?_
  -- what the entries hold beside operands is the same before and after
  rw [ofEntries_of_no_markers (Entry.markersAll_fillAll hmarkers),
    Entry.assignments_fillAll_eq_nil_iff, ← Parts.grows_clauses, Entry.clauses_partsAll_fillAll,
    Parts.grows_clauses]

/-- **What the plan of entries that assign is**, and what their assignments become. -/
theorem ofChanges_eq_ok (hr : r.Blind) (h : Assigns assign R) {xs : List α} :
    ofChanges r assign es values = .ok (xs, p) ↔ Entry.markersAll es ≤ values.length ∧
      (∀ e ∈ es, e.Flat) ∧
      List.Forall₂ R (Entry.partsAll (Entry.fillAll values es)).assignments xs ∧
      Formula.AlikeAll r.Admits (Entry.formulasAll (Entry.fillAll values es))
        (Predicate.formulas p.predicates) ∧
      (Entry.partsAll es).Grows r .none p.toClauses := by
  rw [(substitutes_ofChanges hr h.takes es).eq_ok_iff]
  refine and_congr_right fun hmarkers => ?_
  rw [ofChanges_of_no_markers h (Entry.markersAll_fillAll hmarkers), Entry.flat_fillAll,
    ← Parts.grows_clauses, Entry.clauses_partsAll_fillAll, Parts.grows_clauses]

/-- Every condition can be tested, its values in their places. -/
def Tests (r : Rules) (values : List Value) (es : List Entry) : Prop :=
  ∀ c ∈ Entry.conditionsAll (Entry.fillAll values es), ∃ t, r.Admits c t

theorem exists_alikeAll_iff_tests : (∃ ps : List Predicate, Formula.AlikeAll r.Admits
    (Entry.formulasAll (Entry.fillAll values es)) (Predicate.formulas ps)) ↔ Tests r values es := by
  rw [Formula.exists_alikeAll_iff, Entry.leavesAll_formulasAll]
  exact Iff.rfl

/-- **When entries have a plan.** -/
theorem exists_ofEntries_iff (hr : r.Blind) :
    (∃ p, ofEntries r es values = .ok p) ↔ Entry.markersAll es ≤ values.length ∧
      (Entry.partsAll es).assignments = [] ∧ Tests r values es ∧
      (Entry.partsAll es).Passes r ∧ (Entry.partsAll es).windows.length ≤ 1 := by
  rw [← exists_alikeAll_iff_tests, ← Parts.exists_grows_iff]
  simp only [ofEntries_eq_ok hr]
  constructor
  · rintro ⟨p, hmarkers, hset, hps, hgrows⟩
    exact ⟨hmarkers, hset, ⟨_, hps⟩, ⟨_, hgrows⟩⟩
  · rintro ⟨hmarkers, hset, ⟨ps, hps⟩, ⟨c, hgrows⟩⟩
    exact ⟨⟨c, ps⟩, hmarkers, hset, hps, hgrows⟩

/-- **When entries that assign have a plan.** -/
theorem exists_ofChanges_iff (hr : r.Blind) (h : Assigns assign R) :
    (∃ x, ofChanges r assign es values = .ok x) ↔ Entry.markersAll es ≤ values.length ∧
      (∀ e ∈ es, e.Flat) ∧
      (∀ a ∈ (Entry.partsAll (Entry.fillAll values es)).assignments, ∃ x, R a x) ∧
      Tests r values es ∧
      (Entry.partsAll es).Passes r ∧ (Entry.partsAll es).windows.length ≤ 1 := by
  rw [← exists_forall₂_iff, ← exists_alikeAll_iff_tests, ← Parts.exists_grows_iff]
  constructor
  · rintro ⟨⟨xs, p⟩, hp⟩
    obtain ⟨hmarkers, hflat, hxs, hps, hgrows⟩ := (ofChanges_eq_ok hr h).1 hp
    exact ⟨hmarkers, hflat, ⟨xs, hxs⟩, ⟨_, hps⟩, ⟨_, hgrows⟩⟩
  · rintro ⟨hmarkers, hflat, ⟨xs, hxs⟩, ⟨ps, hps⟩, ⟨c, hgrows⟩⟩
    exact ⟨(xs, ⟨c, ps⟩), (ofChanges_eq_ok hr h).2 ⟨hmarkers, hflat, hxs, hps, hgrows⟩⟩

end Plan

end QueryLayer
