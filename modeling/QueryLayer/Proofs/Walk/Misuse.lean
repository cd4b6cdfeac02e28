import QueryLayer.Proofs.Walk.Parts

/-!
# Walks without misuse

Two errors say that a search should not have been built: it has a second window
of rows, or an entry where it has no meaning. A walk over well built entries
may fail, and never with one of these. What carries this is `Spares`: a step is
told which windows it will meet, and as long as they are not too many together
with the one it finds, it leaves exactly these behind and fails for no misuse.
-/

namespace QueryLayer

open Walk

/-! ## Outcomes -/

namespace QueryError

/-- The error says that the query should not have been built. -/
def IsMisuse : QueryError → Prop
  | .duplicateLimit => True
  | .unexpectedEntry _ _ => True
  | _ => False

end QueryError

/-- If the outcome is an error, then one for no misuse. -/
def Innocent {α : Type} (x : Except QueryError α) : Prop := ∀ e, x = .error e → ¬ e.IsMisuse

namespace Innocent

variable {α β : Type} {x : Except QueryError α} {f : α → Except QueryError β}

theorem ok (a : α) : Innocent (.ok a : Except QueryError α) := by
  rintro e ⟨⟩

theorem error {e : QueryError} (h : ¬ e.IsMisuse) : Innocent (.error e : Except QueryError α) := by
  rintro e' ⟨⟩
  exact h

/-- What follows on an outcome has to be innocent where there is something to
follow on. -/
theorem bind (hx : Innocent x) (hf : ∀ a, x = .ok a → Innocent (f a)) : Innocent (x >>= f) := by
  cases x with
  | error e => exact error (hx e rfl)
  | ok a => exact hf a rfl

theorem map {g : α → β} (hx : Innocent x) : Innocent (x.map g) := by
  cases x with
  | error e => exact error (hx e rfl)
  | ok a => exact ok (g a)

/-- A refusal before the rest. -/
theorem guard {c : Prop} [Decidable c] {e : QueryError} (h : ¬ e.IsMisuse) (hx : Innocent x) :
    Innocent (do
      if c then throw e
      x) := by
  split
  · exact error h
  · exact hx

end Innocent

/-- A marker may be left without a value. -/
theorem Operand.innocent_resolve (o : Operand) (s : Supply) : Innocent (o.resolve s) := by
  cases o with
  | literal v => exact .ok _
  | prepared =>
    rw [resolve_prepared, Supply.take]
    split
    · exact .error id
    · exact .ok _

/-- What a back end refuses by itself is no misuse. -/
structure Rules.Innocent (r : Rules) : Prop where
  condition : ∀ c, QueryLayer.Innocent (r.condition c)
  test : ∀ t, QueryLayer.Innocent (r.test t)
  join : ∀ j, QueryLayer.Innocent (r.join j)
  sortKey : ∀ k, QueryLayer.Innocent (r.sortKey k)
  groupKey : ∀ t, QueryLayer.Innocent (r.groupKey t)

/-! ## Steps -/

namespace Walk

variable {α β : Type} {x : Step α} {f : α → Step β} {vs ws : List Window}

/-- The step meets the windows `ws` and no others. Where there is room for them
it fails for no misuse. -/
def Spares (ws : List Window) (x : Step α) : Prop :=
  ∀ ⦃w : Walk⦄, (w.clauses.window.toList ++ ws).length ≤ 1 → Innocent (x w) ∧
    ∀ a w', x w = .ok (a, w') → w'.clauses.window.toList = w.clauses.window.toList ++ ws

namespace Spares

theorem pure (a : α) : Spares [] (Pure.pure a : Step α) := by
  refine fun w _ => ⟨.ok _, fun b w' h => ?_⟩
  cases Run.pure_eq_ok.1 h
  rw [List.append_nil]

/-- **Steps in a row meet their windows in a row.** -/
theorem bind (hx : Spares vs x) (hf : ∀ a, Spares ws (f a)) : Spares (vs ++ ws) (x >>= f) := by
  intro w hroom
  have hfirst : (w.clauses.window.toList ++ vs).length ≤ 1 := by
    simp only [List.length_append] at hroom ⊢
    omega
  obtain ⟨hinnocent, hwindow⟩ := hx hfirst
  -- the second step starts with what the first one left
  have hsecond : ∀ a m, x w = .ok (a, m) → Innocent (f a m) ∧ ∀ b w', f a m = .ok (b, w') →
      w'.clauses.window.toList = w.clauses.window.toList ++ (vs ++ ws) := by
    intro a m ha
    rw [← List.append_assoc, ← hwindow a m ha] at hroom ⊢
    exact hf a hroom
  refine ⟨.bind hinnocent fun r hr => (hsecond r.1 r.2 hr).1, fun b w' h => ?_⟩
  obtain ⟨a, m, ha, hb⟩ := Run.bind_eq_ok.1 h
  exact (hsecond a m ha).2 b w' hb

/-- A step without windows in front of another. -/
theorem bind_nil (hx : Spares [] x) (hf : ∀ a, Spares ws (f a)) : Spares ws (x >>= f) := by
  simpa using hx.bind hf

/-- What is made of the value meets no windows. -/
theorem bind_pure {g : α → β} (hx : Spares ws x) : Spares ws (do return g (← x)) := by
  simpa using hx.bind fun a => Spares.pure (g a)

theorem stop {e : QueryError} (h : ¬ e.IsMisuse) : Spares [] (Walk.stop e : Step α) := by
  refine fun w _ => ⟨.error h, fun a w' hok => ?_⟩
  exact absurd hok stop_ne_ok

theorem check {c : Except QueryError Unit} (h : Innocent c) : Spares [] (Walk.check c) := by
  refine fun w _ => ⟨.map h, fun a w' hok => ?_⟩
  cases (check_eq_ok.1 hok).2
  rw [List.append_nil]

theorem resolve (o : Operand) : Spares [] (Walk.resolve o) := by
  refine fun w _ => ⟨.map (o.innocent_resolve _), fun v w' h => ?_⟩
  obtain ⟨u, s, -, hr⟩ := resolve_eq_ok.1 h
  cases hr
  rw [List.append_nil]

/-- An outcome of its own touches no window. -/
theorem lift {o : Except QueryError α} (h : Innocent o) : Spares [] (liftM o : Step α) := by
  intro w _
  cases o with
  | error e => exact ⟨.error (h e rfl), fun _ _ hr => by cases hr⟩
  | ok a =>
    refine ⟨.ok _, fun b w' hr => ?_⟩
    cases hr
    rw [List.append_nil]

theorem add {g : Clauses → Clauses} (h : ∀ c, (g c).window = c.window) :
    Spares [] (Walk.add g) := by
  refine fun w _ => ⟨.ok _, fun a w' hok => ?_⟩
  cases add_eq_ok.1 hok
  rw [h, List.append_nil]

/-- A clause that is no window is checked and added. -/
theorem check_add {c : Except QueryError Unit} (hc : Innocent c) {g : Clauses → Clauses}
    (hg : ∀ k, (g k).window = k.window) (a : α) :
    Spares [] (do Walk.check c; Walk.add g; return a) :=
  (check hc).bind_nil fun _ => (add hg).bind_nil fun _ => .pure a

/-- Where there is room for a window there is none yet. -/
theorem addWindow (v : Window) : Spares [v] (Walk.addWindow v) := by
  intro w hroom
  have hnone : w.clauses.window = none := by
    cases h : w.clauses.window with
    | none => rfl
    | some u => simp [h] at hroom
  rw [Walk.addWindow, hnone]
  refine ⟨.ok _, fun a w' hok => ?_⟩
  cases hok
  rfl

end Spares

end Walk

/-! ## Entries -/

namespace Condition

/-- A range has its upper bound. -/
def Bounded (c : Condition) : Prop := c.kind = .between → c.upperBound.isSome

theorem spares_criterion {c : Condition} (hc : c.Bounded) (statement : String) :
    Spares [] (c.criterion statement) := by
  unfold criterion
  split
  · exact (Spares.resolve _).bind_pure
  · exact (Spares.resolve _).bind_pure
  · exact (Spares.resolve _).bind_pure
  · exact (Spares.resolve _).bind_pure
  · exact .pure _
  · refine (Spares.resolve _).bind_nil fun v => ?_
    split
    · exact .stop id
    · exact .pure _
  · next hk =>
    obtain ⟨upper, hupper⟩ := Option.isSome_iff_exists.1 (hc hk)
    rw [hupper]
    exact (Spares.resolve _).bind_nil fun _ => (Spares.resolve _).bind_pure

theorem spares_resolveTest {r : Rules} (hr : r.Innocent) {c : Condition} (hc : c.Bounded) :
    Spares [] (c.resolveTest r) :=
  (Spares.check (hr.condition c)).bind_nil fun _ => (spares_criterion hc _).bind_nil fun _ =>
    (Spares.check (hr.test _)).bind_pure

end Condition

namespace Entry

mutual

/-- Every range has its upper bound, at any depth. -/
def Bounded : Entry → Prop
  | .condition c => c.Bounded
  | .operation _ es => BoundedAll es
  | .join _ | .limit _ | .orderBy _ | .groupBy _ | .set _ => True

/-- The same for several entries. -/
def BoundedAll : List Entry → Prop
  | [] => True
  | e :: es => Bounded e ∧ BoundedAll es

end

theorem boundedAll_append {es fs : List Entry} :
    BoundedAll (es ++ fs) ↔ BoundedAll es ∧ BoundedAll fs := by
  induction es with
  | nil => exact (and_iff_right trivial).symm
  | cons e es ih => rw [List.cons_append, BoundedAll, BoundedAll, ih, and_assoc]

variable {r : Rules}

mutual

/-- **A bounded entry without assignments meets the windows it holds**, and is
walked without misuse. -/
theorem spares_collect (hr : r.Innocent) : ∀ {e : Entry}, e.Bounded → e.parts.assignments = [] →
    Spares e.parts.windows (collect r e)
  | .condition c, hbounded, _ => by
    rw [collect]
    exact (Condition.spares_resolveTest hr hbounded).bind_pure
  | .operation kind es, hbounded, hset => by
    rw [collect, parts]
    exact (spares_collectAll hr hbounded hset).bind_pure
  | .join j, _, _ => by
    rw [collect]
    refine .check_add (hr.join j) ?_ _
    exact fun _ => rfl
  | .limit v, _, _ => by
    rw [collect]
    exact (Spares.addWindow v).bind_pure
  | .orderBy k, _, _ => by
    rw [collect]
    refine .check_add (hr.sortKey k) ?_ _
    exact fun _ => rfl
  | .groupBy t, _, _ => by
    rw [collect]
    refine .check_add (hr.groupKey t) ?_ _
    exact fun _ => rfl

/-- The same for several entries. -/
theorem spares_collectAll (hr : r.Innocent) : ∀ {es : List Entry}, BoundedAll es →
    (partsAll es).assignments = [] → Spares (partsAll es).windows (collectAll r es)
  | [], _, _ => by
    rw [collectAll]
    exact .pure _
  | e :: es, hbounded, hset => by
    obtain ⟨he, hes⟩ := List.append_eq_nil_iff.1 hset
    rw [collectAll]
    exact (spares_collect hr hbounded.1 he).bind fun _ =>
      (spares_collectAll hr hbounded.2 hes).bind_pure

end

/-- **Entries that assign at the top level** are walked without misuse as well,
if the assignments are made without it. -/
theorem spares_collectChanges {α : Type} (hr : r.Innocent) {assign : Assignment → Step α}
    (hassign : ∀ a, Spares [] (assign a)) {es : List Entry} (hbounded : BoundedAll es)
    (hflat : ∀ e ∈ es, e.Flat) : Spares (partsAll es).windows (collectChanges r assign es) := by
  induction es with
  | nil =>
    rw [collectChanges]
    exact .pure _
  | cons e es ih =>
    obtain ⟨he, hes⟩ := List.forall_mem_cons.1 hflat
    have htail := ih hbounded.2 hes
    have hhead : Spares e.parts.windows (collectChange r assign e) := by
      cases e with
      | set a => exact (hassign a).bind_pure
      | condition _ | operation _ _ | join _ | limit _ | orderBy _ | groupBy _ =>
        exact (spares_collect hr hbounded.1 he).bind_pure
    rw [collectChanges_cons]
    exact hhead.bind fun _ => htail.bind_pure

end Entry

/-! ## Plans -/

/-- The entries of a search as its builder leaves them: at most one window, none
of them without rows, and every range with its upper bound. Assignments stand at
the top level. -/
structure Entry.WellBuilt (es : List Entry) : Prop where
  windows : (Entry.partsAll es).windows.length ≤ 1
  limits : ∀ w ∈ (Entry.partsAll es).windows, w.limit ≠ 0
  bounded : Entry.BoundedAll es
  flat : ∀ e ∈ es, e.Flat

namespace Plan

variable {r : Rules} {es : List Entry} {values : List Value}

/-- The plan of well built entries that assign nothing. -/
theorem innocent_ofEntries (hr : r.Innocent) (hes : Entry.WellBuilt es)
    (hset : (Entry.partsAll es).assignments = []) : Innocent (ofEntries r es values) :=
  .map (Entry.spares_collectAll hr hes.bounded hset (w := Walk.start values) hes.windows).1

/-- The plan of well built entries. -/
theorem innocent_ofChanges {α : Type} (hr : r.Innocent) {assign : Assignment → Step α}
    (hassign : ∀ a, Spares [] (assign a)) (hes : Entry.WellBuilt es) :
    Innocent (ofChanges r assign es values) :=
  .map (Entry.spares_collectChanges hr hassign hes.bounded hes.flat (w := Walk.start values)
    hes.windows).1

end Plan

end QueryLayer
