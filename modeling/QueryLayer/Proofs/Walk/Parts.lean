import QueryLayer.Proofs.Walk.Changes
import QueryLayer.Proofs.Walk.Resolve
import Mathlib.Tactic.MkIffOfInductiveProp

/-!
# The two halves of a walk

A walk resolves conditions and gathers clauses, and neither disturbs the other.
Resolving takes the values in the order of the meaning of the entries; gathering
takes the joins, keys and windows in the order in which they are met. So a walk
is known from the meaning of its entries and from their `Parts`
(`collectAll_eq_ok`, `collectChanges_eq_ok`): where a clause stands among the
conditions or inside the operators plays no role. What carries this is
`gathers_bind`, by which both halves of two walks in a row may be put together
on their own.
-/

namespace QueryLayer

open Walk

/-! ## Gathering -/

/-- What entries hold beside their conditions, in the order in which it is met. -/
@[ext]
structure Parts where
  /-- The joins. -/
  joins : List Join
  /-- The keys to group by. -/
  groups : List Target
  /-- The keys to sort by. -/
  sorts : List SortKey
  /-- The windows of rows. -/
  windows : List Window
  /-- The assignments. -/
  assignments : List Assignment

namespace Parts

/-- No part at all. -/
def none : Parts := ⟨[], [], [], [], []⟩

instance : Append Parts where
  append p q := ⟨p.joins ++ q.joins, p.groups ++ q.groups, p.sorts ++ q.sorts,
    p.windows ++ q.windows, p.assignments ++ q.assignments⟩

variable {p q : Parts}

@[simp] theorem joins_append : (p ++ q).joins = p.joins ++ q.joins := rfl

@[simp] theorem groups_append : (p ++ q).groups = p.groups ++ q.groups := rfl

@[simp] theorem sorts_append : (p ++ q).sorts = p.sorts ++ q.sorts := rfl

@[simp] theorem windows_append : (p ++ q).windows = p.windows ++ q.windows := rfl

@[simp] theorem assignments_append : (p ++ q).assignments = p.assignments ++ q.assignments := rfl

@[simp] theorem none_append : none ++ p = p := by
  ext1 <;> simp [none]

@[simp] theorem append_none : p ++ none = p := by
  ext1 <;> simp [none]

theorem append_assoc (p q r : Parts) : p ++ q ++ r = p ++ (q ++ r) := by
  ext1 <;> simp

/-- None of the parts is refused. -/
@[mk_iff]
structure Passes (r : Rules) (p : Parts) : Prop where
  join : ∀ j ∈ p.joins, r.join j = .ok ()
  groupKey : ∀ t ∈ p.groups, r.groupKey t = .ok ()
  sortKey : ∀ k ∈ p.sorts, r.sortKey k = .ok ()

/-- The clauses `c'` are the clauses `c` with the parts behind them. None of
them is refused, and there is one window at most. -/
structure Grows (r : Rules) (p : Parts) (c c' : Clauses) : Prop where
  passes : p.Passes r
  joins : c'.joins = c.joins ++ p.joins
  groups : c'.groups = c.groups ++ p.groups
  sorts : c'.sorts = c.sorts ++ p.sorts
  window : c'.window.toList = c.window.toList ++ p.windows

variable {r : Rules} {c c' : Clauses}

theorem passes_append : (p ++ q).Passes r ↔ p.Passes r ∧ q.Passes r := by
  constructor
  · intro h
    exact ⟨⟨fun j hj => h.join j (List.mem_append_left _ hj),
        fun t ht => h.groupKey t (List.mem_append_left _ ht),
        fun k hk => h.sortKey k (List.mem_append_left _ hk)⟩,
      ⟨fun j hj => h.join j (List.mem_append_right _ hj),
        fun t ht => h.groupKey t (List.mem_append_right _ ht),
        fun k hk => h.sortKey k (List.mem_append_right _ hk)⟩⟩
  · rintro ⟨hp, hq⟩
    exact ⟨fun j hj => (List.mem_append.1 hj).elim (hp.join j) (hq.join j),
      fun t ht => (List.mem_append.1 ht).elim (hp.groupKey t) (hq.groupKey t),
      fun k hk => (List.mem_append.1 hk).elim (hp.sortKey k) (hq.sortKey k)⟩

/-- Parts without a window say what the clauses become. -/
theorem grows_iff_of_no_window (hp : p.windows = []) :
    p.Grows r c c' ↔ p.Passes r ∧
      c' = ⟨c.joins ++ p.joins, c.groups ++ p.groups, c.sorts ++ p.sorts, c.window⟩ := by
  constructor
  · intro h
    obtain ⟨joins, groups, sorts, window⟩ := c'
    have hwindow := h.window
    rw [hp, List.append_nil] at hwindow
    have hhead : window = c.window := by simpa using congrArg List.head? hwindow
    exact ⟨h.passes, by rw [← h.joins, ← h.groups, ← h.sorts, ← hhead]⟩
  · rintro ⟨hpasses, rfl⟩
    exact ⟨hpasses, rfl, rfl, rfl, by rw [hp, List.append_nil]⟩

/-- A window is gathered where there is none. -/
theorem grows_window {v : Window} : { none with windows := [v] }.Grows r c c' ↔
    c.window = .none ∧ c' = { c with window := some v } := by
  constructor
  · intro h
    obtain ⟨joins, groups, sorts, window⟩ := c'
    have hwindow := h.window
    cases hc : c.window with
    | some u => cases window <;> simp [hc] at hwindow
    | none =>
      have hhead : window = some v := by simpa [hc] using congrArg List.head? hwindow
      have hjoins : joins = c.joins := by simpa [none] using h.joins
      have hgroups : groups = c.groups := by simpa [none] using h.groups
      have hsorts : sorts = c.sorts := by simpa [none] using h.sorts
      rw [hhead, hjoins, hgroups, hsorts]
      exact ⟨rfl, rfl⟩
  · rintro ⟨hc, rfl⟩
    constructor <;> simp [none, hc, passes_iff]

/-- Assignments change no clause. -/
theorem grows_assignments {as : List Assignment} :
    { none with assignments := as }.Grows r c c' ↔ c' = c := by
  rw [grows_iff_of_no_window rfl]
  simp [none, passes_iff]

/-- A list that begins a list of one item at most is such a list itself. -/
theorem toList_of_append {α : Type} {o : Option α} {xs ys : List α} (h : o.toList = xs ++ ys) :
    ∃ o' : Option α, o'.toList = xs := by
  cases xs with
  | nil => exact ⟨.none, rfl⟩
  | cons x xs =>
    cases o with
    | none => cases h
    | some a =>
      rw [Option.toList_some, List.cons_append, List.cons.injEq] at h
      have hxs : xs = [] := (List.append_eq_nil_iff.1 h.2.symm).1
      exact ⟨some x, by rw [hxs, Option.toList_some]⟩

/-- **Parts are gathered in a row.** -/
theorem grows_append {c'' : Clauses} :
    (p ++ q).Grows r c c'' ↔ ∃ c', p.Grows r c c' ∧ q.Grows r c' c'' := by
  constructor
  · intro h
    have hwindow := h.window
    rw [windows_append, ← List.append_assoc] at hwindow
    obtain ⟨o, ho⟩ := toList_of_append hwindow
    obtain ⟨hp, hq⟩ := passes_append.1 h.passes
    refine ⟨⟨c.joins ++ p.joins, c.groups ++ p.groups, c.sorts ++ p.sorts, o⟩,
      ⟨hp, rfl, rfl, rfl, ho⟩, ⟨hq, ?_, ?_, ?_, ?_⟩⟩
    · rw [h.joins, joins_append, List.append_assoc]
    · rw [h.groups, groups_append, List.append_assoc]
    · rw [h.sorts, sorts_append, List.append_assoc]
    · rw [hwindow, ho]
  · rintro ⟨c', hp, hq⟩
    refine ⟨passes_append.2 ⟨hp.passes, hq.passes⟩, ?_, ?_, ?_, ?_⟩
    · rw [hq.joins, hp.joins, joins_append, List.append_assoc]
    · rw [hq.groups, hp.groups, groups_append, List.append_assoc]
    · rw [hq.sorts, hp.sorts, sorts_append, List.append_assoc]
    · rw [hq.window, hp.window, windows_append, List.append_assoc]

end Parts

/-! ## Both halves together -/

section Gathers

variable {α β : Type} {r : Rules} {p q : Parts} {w w' : Walk} {x : Step α} {f : α → Step β}

/-- From `w` the step `x` yields `a` on the supply alone, and with the parts `p`
gathered beside it comes to `w'`. -/
def Gathers (r : Rules) (x : Step α) (p : Parts) (w : Walk) (a : α) (w' : Walk) : Prop :=
  x w = .ok (a, ⟨w'.supply, w.clauses⟩) ∧ p.Grows r w.clauses w'.clauses

/-- A step that only yields leaves everything to what is gathered. -/
theorem gathers_pure {a b : α} :
    Gathers r (pure a) p w b w' ↔ b = a ∧ w'.supply = w.supply ∧ p.Grows r w.clauses w'.clauses := by
  obtain ⟨s, c⟩ := w
  rw [Gathers, Run.pure_eq_ok]
  constructor
  · rintro ⟨h, hgrows⟩
    cases h
    exact ⟨rfl, rfl, hgrows⟩
  · rintro ⟨rfl, hs, hgrows⟩
    exact ⟨by rw [hs], hgrows⟩

/-- A step with nothing to gather is run as it is. -/
theorem gathers_assignments {as : List Assignment} {a : α} (hx : ClauseFree x) :
    Gathers r x { Parts.none with assignments := as } w a w' ↔ x w = .ok (a, w') := by
  rw [Gathers, Parts.grows_assignments]
  obtain ⟨s', c'⟩ := w'
  constructor
  · rintro ⟨h, hc⟩
    rw [h, ← hc]
  · intro h
    have hc : c' = w.clauses := hx.clauses_eq h
    rw [h, hc]
    exact ⟨rfl, rfl⟩

/-- **Steps in a row gather in a row.** The second step does not see what was
gathered before it. -/
theorem gathers_bind {b : β} (hx : ClauseFree x) (hf : ∀ a, ClauseFree (f a)) :
    Gathers r (x >>= f) (p ++ q) w b w' ↔
      ∃ a m, Gathers r x p w a m ∧ Gathers r (f a) q m b w' := by
  constructor
  · rintro ⟨hrun, hgrows⟩
    obtain ⟨a, m, ha, hb⟩ := Run.bind_eq_ok.1 hrun
    obtain ⟨c, hp, hq⟩ := Parts.grows_append.1 hgrows
    exact ⟨a, ⟨m.supply, c⟩, ⟨hx ha w.clauses, hp⟩, ⟨hf a hb c, hq⟩⟩
  · rintro ⟨a, m, ⟨ha, hp⟩, ⟨hb, hq⟩⟩
    exact ⟨Run.bind_eq_ok.2 ⟨a, _, ha, hf a hb w.clauses⟩, Parts.grows_append.2 ⟨m.clauses, hp, hq⟩⟩

theorem gathers_map {g : α → β} {b : β} :
    Gathers r (g <$> x) p w b w' ↔ ∃ a, Gathers r x p w a w' ∧ g a = b := by
  rw [Gathers, Run.map_eq_ok]
  constructor
  · rintro ⟨⟨a, ha, hb⟩, hgrows⟩
    exact ⟨a, ⟨ha, hgrows⟩, hb⟩
  · rintro ⟨a, ⟨ha, hgrows⟩, hb⟩
    exact ⟨⟨a, ha, hb⟩, hgrows⟩

/-- A clause that is checked and added is gathered. -/
theorem check_add_eq_ok {check : Except QueryError Unit} {g : Clauses → Clauses} {a b : α} :
    (do Walk.check check; add g; return a : Step α) w = .ok (b, w') ↔
      b = a ∧ w'.supply = w.supply ∧ check = .ok () ∧ w'.clauses = g w.clauses := by
  rw [Run.bind_eq_ok]
  constructor
  · rintro ⟨u, m, hcheck, h⟩
    obtain ⟨u', m', hadd, h⟩ := Run.bind_eq_ok.1 h
    obtain ⟨hok, hm⟩ := check_eq_ok.1 hcheck
    cases hm
    cases add_eq_ok.1 hadd
    cases Run.pure_eq_ok.1 h
    exact ⟨rfl, rfl, hok, rfl⟩
  · rintro ⟨rfl, hs, hcheck, hc⟩
    obtain ⟨s', c'⟩ := w'
    obtain rfl : s' = w.supply := hs
    obtain rfl : c' = g w.clauses := hc
    exact ⟨(), w, check_eq_ok.2 ⟨hcheck, rfl⟩,
      Run.bind_eq_ok.2 ⟨(), _, add_eq_ok.2 rfl, Run.pure_eq_ok.2 rfl⟩⟩

/-- And so is a window where there is none. -/
theorem addWindow_eq_ok_iff {v : Window} {a b : α} :
    (do addWindow v; return a : Step α) w = .ok (b, w') ↔
      Gathers r (pure a) { Parts.none with windows := [v] } w b w' := by
  rw [Run.bind_eq_ok, gathers_pure, Parts.grows_window]
  constructor
  · rintro ⟨u, m, hadd, h⟩
    obtain ⟨hnone, hm⟩ := addWindow_eq_ok.1 hadd
    cases hm
    cases Run.pure_eq_ok.1 h
    exact ⟨rfl, rfl, hnone, rfl⟩
  · rintro ⟨rfl, hs, hnone, hc⟩
    obtain ⟨s', c'⟩ := w'
    obtain rfl : s' = w.supply := hs
    obtain rfl : c' = _ := hc
    exact ⟨(), _, addWindow_eq_ok.2 ⟨hnone, rfl⟩, Run.pure_eq_ok.2 rfl⟩

end Gathers

namespace Entry

mutual

/-- What an entry holds beside its conditions, at any depth. -/
def parts : Entry → Parts
  | .condition _ => .none
  | .operation _ es => partsAll es
  | .join j => { Parts.none with joins := [j] }
  | .limit w => { Parts.none with windows := [w] }
  | .orderBy k => { Parts.none with sorts := [k] }
  | .groupBy t => { Parts.none with groups := [t] }
  | .set a => { Parts.none with assignments := [a] }

/-- What several entries hold beside their conditions. -/
def partsAll : List Entry → Parts
  | [] => .none
  | e :: es => parts e ++ partsAll es

end

theorem partsAll_append (es fs : List Entry) : partsAll (es ++ fs) = partsAll es ++ partsAll fs := by
  induction es with
  | nil => simp [partsAll]
  | cons e es ih => rw [List.cons_append, partsAll, partsAll, ih, Parts.append_assoc]

theorem formulasAll_append (es fs : List Entry) :
    formulasAll (es ++ fs) = formulasAll es ++ formulasAll fs := by
  induction es with
  | nil => rfl
  | cons e es ih => rw [List.cons_append, formulasAll, formulasAll, ih, List.append_assoc]

variable {r : Rules}

mutual

/-- **An entry is walked by resolving its conditions and gathering its parts.** -/
theorem collect_eq_ok : ∀ {e : Entry} {w w' : Walk} {ps : List Predicate},
    collect r e w = .ok (ps, w') ↔ e.parts.assignments = [] ∧
      Gathers r (Formula.resolveAll r e.formulas) e.parts w ps w'
  | .condition c, w, w', ps => by
    have hfree : ClauseFree (collect r (.condition c)) := by
      rw [collect]
      exact .bind (c.clauseFree_resolveTest r) fun _ => .pure _
    have hresolve : Formula.resolveAll r (formulas (.condition c)) = collect r (.condition c) := by
      simp [formulas, collect, Formula.resolveAll, Formula.resolve]
    rw [parts, hresolve]
    exact (gathers_assignments hfree).symm.trans (and_iff_right rfl).symm
  | .operation kind es, w, w', ps => by
    have hmap : collect r (.operation kind es) = kind.combine <$> collectAll r es := by
      simp [collect]
    rw [hmap, Run.map_eq_ok, formulas, parts, Formula.resolveAll_group, gathers_map]
    constructor
    · rintro ⟨qs, hqs, hps⟩
      obtain ⟨hset, hgathers⟩ := collectAll_eq_ok.1 hqs
      exact ⟨hset, qs, hgathers, hps⟩
    · rintro ⟨hset, qs, hgathers, hps⟩
      exact ⟨qs, collectAll_eq_ok.2 ⟨hset, hgathers⟩, hps⟩
  -- a clause has nothing to resolve
  | .join j, w, w', ps => by
    simp only [collect, formulas, parts, Formula.resolveAll]
    rw [check_add_eq_ok, gathers_pure, Parts.grows_iff_of_no_window rfl]
    simp [Parts.passes_iff, Parts.none]
  | .orderBy k, w, w', ps => by
    simp only [collect, formulas, parts, Formula.resolveAll]
    rw [check_add_eq_ok, gathers_pure, Parts.grows_iff_of_no_window rfl]
    simp [Parts.passes_iff, Parts.none]
  | .groupBy t, w, w', ps => by
    simp only [collect, formulas, parts, Formula.resolveAll]
    rw [check_add_eq_ok, gathers_pure, Parts.grows_iff_of_no_window rfl]
    simp [Parts.passes_iff, Parts.none]
  | .limit v, w, w', ps => by
    simp only [collect, formulas, parts, Formula.resolveAll]
    rw [addWindow_eq_ok_iff (r := r)]
    exact ⟨fun h => ⟨rfl, h⟩, fun h => h.2⟩
  | .set a, w, w', ps => by
    rw [collect, parts]
    constructor
    · intro h
      exact absurd h stop_ne_ok
    · rintro ⟨hset, -⟩
      cases hset

/-- The same for several entries. -/
theorem collectAll_eq_ok : ∀ {es : List Entry} {w w' : Walk} {ps : List Predicate},
    collectAll r es w = .ok (ps, w') ↔ (partsAll es).assignments = [] ∧
      Gathers r (Formula.resolveAll r (formulasAll es)) (partsAll es) w ps w'
  | [], w, w', ps => by
    rw [collectAll, formulasAll, partsAll, Formula.resolveAll]
    exact (gathers_assignments (.pure _)).symm.trans (and_iff_right rfl).symm
  | e :: es, w, w', ps => by
    rw [collectAll, formulasAll, partsAll, Formula.resolveAll_append, Run.bind_eq_ok,
      Parts.assignments_append, List.append_eq_nil_iff]
    rw [gathers_bind (Formula.clauseFree_resolveAll r _)
      fun _ => .bind (Formula.clauseFree_resolveAll r _) fun _ => .pure _]
    simp only [← map_eq_pure_bind, gathers_map, Run.map_eq_ok]
    constructor
    · rintro ⟨qs, m, hqs, qs', hqs', hps⟩
      obtain ⟨he, hhead⟩ := collect_eq_ok.1 hqs
      obtain ⟨hes, htail⟩ := collectAll_eq_ok.1 hqs'
      exact ⟨⟨he, hes⟩, qs, m, hhead, qs', htail, hps⟩
    · rintro ⟨⟨he, hes⟩, qs, m, hhead, qs', htail, hps⟩
      exact ⟨qs, m, collect_eq_ok.2 ⟨he, hhead⟩, qs', collectAll_eq_ok.2 ⟨hes, htail⟩, hps⟩

end

/-! ## Statements that assign -/

section Changes

variable {α : Type} {assign : Assignment → Step α}

/-- What an entry of a statement that assigns yields. -/
def collectChange (r : Rules) (assign : Assignment → Step α) : Entry → Step (List α × List Predicate)
  | .set a => return ([← assign a], [])
  | e => return ([], ← collect r e)

theorem collectChanges_cons (e : Entry) (es : List Entry) :
    collectChanges r assign (e :: es) = (do
      let x ← collectChange r assign e
      let y ← collectChanges r assign es
      return (x.1 ++ y.1, x.2 ++ y.2)) := by
  cases e <;> simp [collectChanges, collectChange]

/-- What an entry of a statement that assigns yields on the supply alone. -/
def resolveChange (r : Rules) (assign : Assignment → Step α) : Entry → Step (List α × List Predicate)
  | .set a => return ([← assign a], [])
  | e => return ([], ← Formula.resolveAll r e.formulas)

/-- What the entries of a statement that assigns yield on the supply alone. -/
def resolveChanges (r : Rules) (assign : Assignment → Step α) :
    List Entry → Step (List α × List Predicate)
  | [] => return ([], [])
  | e :: es => do
    let x ← resolveChange r assign e
    let y ← resolveChanges r assign es
    return (x.1 ++ y.1, x.2 ++ y.2)

theorem resolveChanges_append (es fs : List Entry) :
    resolveChanges r assign (es ++ fs) = (do
      let x ← resolveChanges r assign es
      let y ← resolveChanges r assign fs
      return (x.1 ++ y.1, x.2 ++ y.2)) := by
  induction es with
  | nil => simp [resolveChanges]
  | cons e es ih => simp [resolveChanges, ih]

theorem clauseFree_resolveChange (hassign : ∀ a, ClauseFree (assign a)) (e : Entry) :
    ClauseFree (resolveChange r assign e) := by
  unfold resolveChange
  split
  · exact .bind (hassign _) fun _ => .pure _
  · exact .bind (Formula.clauseFree_resolveAll r _) fun _ => .pure _

theorem clauseFree_resolveChanges (hassign : ∀ a, ClauseFree (assign a)) (es : List Entry) :
    ClauseFree (resolveChanges r assign es) := by
  induction es with
  | nil => exact .pure _
  | cons e es ih =>
    exact .bind (clauseFree_resolveChange hassign e) fun _ => .bind ih fun _ => .pure _

/-- No assignment stands inside the entry. -/
def Flat : Entry → Prop
  | .set _ => True
  | e => e.parts.assignments = []

/-- An entry of a statement that assigns is walked by resolving it and gathering
its parts. -/
theorem collectChange_eq_ok (hassign : ∀ a, ClauseFree (assign a)) {e : Entry} {w w' : Walk}
    {x : List α × List Predicate} :
    collectChange r assign e w = .ok (x, w') ↔
      e.Flat ∧ Gathers r (resolveChange r assign e) e.parts w x w' := by
  cases e with
  | set a =>
    have hfree : ClauseFree (collectChange r assign (.set a)) := .bind (hassign a) fun _ => .pure _
    exact (gathers_assignments hfree).symm.trans (and_iff_right trivial).symm
  | condition _ | operation _ _ | join _ | limit _ | orderBy _ | groupBy _ =>
    simp only [collectChange, resolveChange, ← map_eq_pure_bind, gathers_map, Run.map_eq_ok,
      collect_eq_ok]
    constructor
    · rintro ⟨ps, ⟨hset, hgathers⟩, hx⟩
      exact ⟨hset, ps, hgathers, hx⟩
    · rintro ⟨hset, ps, hgathers, hx⟩
      exact ⟨ps, ⟨hset, hgathers⟩, hx⟩

/-- **A statement that assigns is walked by resolving its changes and conditions
and gathering its parts.** -/
theorem collectChanges_eq_ok (hassign : ∀ a, ClauseFree (assign a)) {es : List Entry} {w w' : Walk}
    {x : List α × List Predicate} :
    collectChanges r assign es w = .ok (x, w') ↔
      (∀ e ∈ es, e.Flat) ∧ Gathers r (resolveChanges r assign es) (partsAll es) w x w' := by
  induction es generalizing w x with
  | nil =>
    rw [collectChanges, partsAll, resolveChanges]
    exact (gathers_assignments (.pure _)).symm.trans (and_iff_right (by simp)).symm
  | cons e es ih =>
    rw [collectChanges_cons, partsAll, resolveChanges, Run.bind_eq_ok, List.forall_mem_cons]
    rw [gathers_bind (clauseFree_resolveChange hassign e)
      fun _ => .bind (clauseFree_resolveChanges hassign es) fun _ => .pure _]
    simp only [← map_eq_pure_bind, gathers_map, Run.map_eq_ok]
    constructor
    · rintro ⟨y, m, hy, z, hz, hx⟩
      obtain ⟨he, hhead⟩ := (collectChange_eq_ok hassign).1 hy
      obtain ⟨hes, htail⟩ := ih.1 hz
      exact ⟨⟨he, hes⟩, y, m, hhead, z, htail, hx⟩
    · rintro ⟨⟨he, hes⟩, y, m, hhead, z, htail, hx⟩
      exact ⟨y, m, (collectChange_eq_ok hassign).2 ⟨he, hhead⟩, z, ih.2 ⟨hes, htail⟩, hx⟩

/-- The assignments of a walk are those at the top level, in order. -/
theorem map_fst_of_resolveChanges {es : List Entry} (hes : ∀ e ∈ es, e.Flat) :
    ∀ {w w' : Walk} {xs : List (Assignment × Value)} {ps : List Predicate},
      resolveChanges r Assignment.resolved es w = .ok ((xs, ps), w') →
        xs.map Prod.fst = (partsAll es).assignments := by
  induction es with
  | nil =>
    intro w w' xs ps h
    cases h
    rfl
  | cons e es ih =>
    intro w w' xs ps h
    obtain ⟨he, hes⟩ := List.forall_mem_cons.1 hes
    rw [resolveChanges] at h
    obtain ⟨x, m, hx, h⟩ := Run.bind_eq_ok.1 h
    obtain ⟨y, m', hy, h⟩ := Run.bind_eq_ok.1 h
    cases Run.pure_eq_ok.1 h
    rw [List.map_append, ih hes hy, partsAll, Parts.assignments_append]
    congr 1
    cases e with
    | set a =>
      obtain ⟨z, k, hz, hx⟩ := Run.bind_eq_ok.1 hx
      obtain ⟨v, k', -, hz⟩ := Run.bind_eq_ok.1 hz
      cases Run.pure_eq_ok.1 hz
      cases Run.pure_eq_ok.1 hx
      rfl
    | condition _ | operation _ _ | join _ | limit _ | orderBy _ | groupBy _ =>
      obtain ⟨z, k, -, hx⟩ := Run.bind_eq_ok.1 hx
      cases Run.pure_eq_ok.1 hx
      exact he.symm

end Changes

end Entry

/-! ## Plans -/

namespace Plan

variable {r : Rules} {es : List Entry} {values : List Value} {p : Plan}

/-- The clauses of a plan are parts of its entries. -/
structure HasParts (es : List Entry) (p : Plan) : Prop where
  joins : p.joins = (Entry.partsAll es).joins
  groups : p.groups = (Entry.partsAll es).groups
  sorts : p.sorts = (Entry.partsAll es).sorts
  window : p.window.toList = (Entry.partsAll es).windows

theorem hasParts_of_grows {c : Clauses} {ps : List Predicate}
    (h : (Entry.partsAll es).Grows r .none c) : HasParts es ⟨c, ps⟩ :=
  ⟨h.joins, h.groups, h.sorts, h.window⟩

theorem hasParts_of_ofEntries (h : ofEntries r es values = .ok p) : p.HasParts es := by
  obtain ⟨⟨ps, w⟩, hw, rfl⟩ := Run.outcome_map_eq_ok.1 h
  obtain ⟨-, -, hgrows⟩ := Entry.collectAll_eq_ok.1 hw
  exact hasParts_of_grows hgrows

/-- An update has the assignments of its entries. -/
theorem hasParts_of_ofChanges {xs : List (Assignment × Value)}
    (h : ofChanges r Assignment.resolved es values = .ok (xs, p)) :
    p.HasParts es ∧ xs.map Prod.fst = (Entry.partsAll es).assignments := by
  obtain ⟨⟨⟨ys, ps⟩, w⟩, hw, hp⟩ := Run.outcome_map_eq_ok.1 h
  cases hp
  have hassign : ∀ a : Assignment, ClauseFree a.resolved :=
    fun a => .bind (.resolve a.value) fun _ => .pure _
  obtain ⟨hflat, hrun, hgrows⟩ := (Entry.collectChanges_eq_ok hassign).1 hw
  exact ⟨hasParts_of_grows hgrows, Entry.map_fst_of_resolveChanges hflat hrun⟩

end Plan

end QueryLayer
