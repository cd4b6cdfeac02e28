import QueryLayer.Plan
import Mathlib.Data.List.Forall2

/-!
# Runs of steps

A step is run at a state and either yields a value and the next state or ends
with an error. Later modules take runs apart with these rules and never look
inside a monad.
-/

namespace QueryLayer

namespace Run

variable {σ ε α β : Type} {s s' : σ} {x : StateT σ (Except ε) α} {f : α → StateT σ (Except ε) β}

theorem bind_of_ok {a : α} (h : x s = .ok (a, s')) : (x >>= f) s = f a s' := by
  simp [bind, StateT.bind, Except.bind, h]

theorem bind_of_error {e : ε} (h : x s = .error e) : (x >>= f) s = .error e := by
  simp [bind, StateT.bind, Except.bind, h]

/-- A sequence succeeds through a middle state. -/
theorem bind_eq_ok {r : β × σ} :
    (x >>= f) s = .ok r ↔ ∃ a m, x s = .ok (a, m) ∧ f a m = .ok r := by
  constructor
  · intro h
    cases hx : x s with
    | error e => rw [bind_of_error hx] at h; cases h
    | ok p => exact ⟨p.1, p.2, rfl, by rwa [bind_of_ok hx] at h⟩
  · rintro ⟨a, m, hx, hf⟩
    rw [bind_of_ok hx, hf]

theorem pure_eq_ok {a : α} {r : α × σ} :
    (pure a : StateT σ (Except ε) α) s = .ok r ↔ (a, s) = r := by
  change Except.ok (a, s) = .ok r ↔ (a, s) = r
  exact ⟨Except.ok.inj, congrArg Except.ok⟩

/-- What is made of a value plays no role for success. -/
theorem map_eq_ok {g : α → β} {b : β} :
    (g <$> x) s = .ok (b, s') ↔ ∃ a, x s = .ok (a, s') ∧ g a = b := by
  rw [map_eq_pure_bind, bind_eq_ok]
  constructor
  · rintro ⟨a, m, ha, h⟩
    cases pure_eq_ok.1 h
    exact ⟨a, ha, rfl⟩
  · rintro ⟨a, ha, rfl⟩
    exact ⟨a, s', ha, pure_eq_ok.2 rfl⟩

/-! The same for outcomes without a state. -/

theorem outcome_bind_eq_ok {x : Except ε α} {f : α → Except ε β} {b : β} :
    (x >>= f) = .ok b ↔ ∃ a, x = .ok a ∧ f a = .ok b := by
  cases x with
  | error e => simp [bind, Except.bind]
  | ok a => simp [bind, Except.bind]

theorem outcome_map_eq_ok {x : Except ε α} {f : α → β} {b : β} :
    x.map f = .ok b ↔ ∃ a, x = .ok a ∧ f a = b := by
  cases x with
  | error e => simp [Except.map]
  | ok a => simp [Except.map]

/-- What is made of an outcome plays no role for its success. -/
theorem exists_map_eq_ok {x : Except ε α} {f : α → β} :
    (∃ b, x.map f = .ok b) ↔ ∃ a, x = .ok a := by
  cases x <;> simp [Except.map]

theorem exists_bind_eq_ok {x : Except ε α} {f : α → β} :
    (∃ b, (x >>= fun a => Except.ok (f a)) = .ok b) ↔ ∃ a, x = .ok a := by
  cases x <;> simp [bind, Except.bind]

/-- A list of outcomes succeeds if each of them does. -/
theorem outcome_mapM_eq_ok {f : α → Except ε β} {xs : List α} {ys : List β} :
    xs.mapM f = .ok ys ↔ List.Forall₂ (fun x y => f x = .ok y) xs ys := by
  induction xs generalizing ys with
  | nil =>
    rw [List.mapM_nil, List.forall₂_nil_left_iff]
    exact ⟨fun h => (Except.ok.inj h).symm, fun h => h ▸ rfl⟩
  | cons x xs ih =>
    rw [List.mapM_cons, outcome_bind_eq_ok, List.forall₂_cons_left_iff]
    constructor
    · rintro ⟨y, hy, h⟩
      obtain ⟨zs, hzs, h⟩ := outcome_bind_eq_ok.1 h
      exact ⟨y, zs, hy, ih.1 hzs, (Except.ok.inj h).symm⟩
    · rintro ⟨y, zs, hy, hzs, rfl⟩
      refine ⟨y, hy, ?_⟩
      rw [ih.2 hzs]
      rfl

/-- A list of outcomes fails with the first of them that does. -/
theorem first_of_outcome_mapM_eq_error {f : α → Except ε β} {xs : List α} {e : ε}
    (h : xs.mapM f = .error e) : ∃ before x after, xs = before ++ x :: after ∧
      (∀ y ∈ before, ∃ b, f y = .ok b) ∧ f x = .error e := by
  induction xs with
  | nil => cases h
  | cons x xs ih =>
    rw [List.mapM_cons] at h
    cases hx : f x with
    | error e' =>
      rw [hx] at h
      obtain rfl : e' = e := Except.error.inj h
      exact ⟨[], x, xs, rfl, by simp, hx⟩
    | ok b =>
      rw [hx] at h
      cases hxs : xs.mapM f with
      | ok bs =>
        simp only [hxs] at h
        cases h
      | error e' =>
        simp only [hxs] at h
        obtain rfl : e' = e := Except.error.inj h
        obtain ⟨before, y, after, rfl, hbefore, hy⟩ := ih hxs
        exact ⟨x :: before, y, after, rfl, List.forall_mem_cons.2 ⟨⟨b, hx⟩, hbefore⟩, hy⟩

end Run

namespace Walk

variable {α : Type} {w : Walk}

theorem check_eq_ok {c : Except QueryError Unit} {r : Unit × Walk} :
    check c w = .ok r ↔ c = .ok () ∧ ((), w) = r := by
  cases c with
  | error e => simp [check, Except.map]
  | ok u => simp [check, Except.map]

theorem add_eq_ok {g : Clauses → Clauses} {r : Unit × Walk} :
    add g w = .ok r ↔ ((), { w with clauses := g w.clauses }) = r := by
  simp [add]

theorem stop_ne_ok {e : QueryError} {r : α × Walk} : stop e w ≠ .ok r := by
  simp [stop]

/-- A window is added where there is none yet. -/
theorem addWindow_eq_ok {v : Window} {r : Unit × Walk} :
    addWindow v w = .ok r ↔ w.clauses.window = none ∧
      ((), { w with clauses := { w.clauses with window := some v } }) = r := by
  cases h : w.clauses.window <;> simp [addWindow, h]

/-- Taking the value of an operand changes the supply only. -/
theorem resolve_eq_ok {o : Operand} {r : Value × Walk} :
    resolve o w = .ok r ↔ ∃ v s, o.resolve w.supply = .ok (v, s) ∧
      (v, { w with supply := s }) = r := by
  rw [resolve, Run.outcome_map_eq_ok]
  constructor
  · rintro ⟨⟨v, s⟩, h, rfl⟩
    exact ⟨v, s, h, rfl⟩
  · rintro ⟨v, s, h, rfl⟩
    exact ⟨(v, s), h, rfl⟩

end Walk

end QueryLayer
