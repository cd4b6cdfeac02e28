import QueryLayer.Proofs.Walk.Run

/-!
# Steps that take runtime values

A step that takes values off the supply is compared with the steps in which the
values stand already (`Takes`). With enough values both act alike, and with too
few the step fails. If more values would let it succeed, then it fails for the
first value that is missing: up to there the two runs are the same.

The state of a step holds a supply and something else, and `put` makes a state
of the two. So the same rules serve steps whose state is the supply alone.
-/

namespace QueryLayer

variable {σ τ α β : Type} {put : Supply → τ → σ}

/-- With these values in front of the supply, the step acts as `g` on the rest
of the state. It takes the values and leaves all others. -/
def ActsAs (put : Supply → τ → σ) (vs : List Value) (x : StateT σ (Except QueryError) α)
    (g : τ → Except QueryError (α × τ)) : Prop :=
  ∀ tail taken c, x (put ⟨vs ++ tail, taken⟩ c) =
    (g c).map fun r => (r.1, put ⟨tail, taken + vs.length⟩ r.2)

/-- With fewer values the step fails. If more of them would let it succeed, it
fails for the first one that is missing. -/
def Starves (put : Supply → τ → σ) (m : ℕ) (x : StateT σ (Except QueryError) α) : Prop :=
  ∀ (vs : List Value) (taken : ℕ) (c : τ), vs.length < m →
    ∃ e, x (put ⟨vs, taken⟩ c) = .error e ∧
      ∀ more r, x (put ⟨vs ++ more, taken⟩ c) = .ok r → e = .missingPreparedValue (taken + vs.length)

/-- The step takes `m` values. The filled step has them in place and takes
none. -/
structure Takes (put : Supply → τ → σ) (m : ℕ) (x : StateT σ (Except QueryError) α)
    (filled : List Value → StateT σ (Except QueryError) α) : Prop where
  fills : ∀ vs, m ≤ vs.length → ∃ g, ActsAs put (vs.take m) x g ∧ ActsAs put [] (filled vs) g
  starves : Starves put m x

/-- Values with more behind them, cut where a step stops taking. -/
theorem values_split (m : ℕ) (vs more : List Value) :
    vs ++ more = vs.take m ++ (vs.drop m ++ more) := by
  rw [← List.append_assoc, List.take_append_drop]

namespace ActsAs

variable {x : StateT σ (Except QueryError) α} {f : α → StateT σ (Except QueryError) β}
  {g : τ → Except QueryError (α × τ)} {h : α → τ → Except QueryError (β × τ)} {vs us : List Value}

theorem bind (hx : ActsAs put vs x g) (hf : ∀ a, ActsAs put us (f a) (h a)) :
    ActsAs put (vs ++ us) (x >>= f) fun c => g c >>= fun r => h r.1 r.2 := by
  intro tail taken c
  have hrun := hx (us ++ tail) taken c
  dsimp only
  rw [List.append_assoc]
  cases hg : g c with
  | error e =>
    rw [hg] at hrun
    rw [Run.bind_of_error hrun]
    rfl
  | ok r =>
    rw [hg] at hrun
    rw [Run.bind_of_ok hrun, hf r.1, List.length_append, Nat.add_assoc]
    rfl

theorem fail (vs : List Value) (e : QueryError) :
    ActsAs (α := α) put vs (fun _ => .error e) fun _ => .error e :=
  fun _ _ _ => rfl

theorem pure (a : α) : ActsAs put [] (Pure.pure a) fun c => .ok (a, c) :=
  fun _ _ _ => rfl

end ActsAs

namespace Takes

variable {x : StateT σ (Except QueryError) α} {y : List Value → StateT σ (Except QueryError) α}
  {f : α → StateT σ (Except QueryError) β}
  {h : α → List Value → StateT σ (Except QueryError) β} {m k : ℕ}

/-- A step that takes nothing is its own filled step. -/
theorem of_actsAs {g : τ → Except QueryError (α × τ)} (hx : ActsAs put [] x g) :
    Takes put 0 x fun _ => x where
  fills _ _ := ⟨g, hx, hx⟩
  starves _ _ _ hlt := absurd hlt (Nat.not_lt_zero _)

theorem pure (a : α) : Takes put 0 (Pure.pure a) fun _ => Pure.pure a := of_actsAs (.pure a)

/-- A step that always fails may be said to take any number of values. -/
theorem fail (m : ℕ) (e : QueryError) :
    Takes (α := α) put m (fun _ => .error e) fun _ _ => .error e where
  fills vs _ := ⟨fun _ => .error e, .fail _ e, .fail _ e⟩
  starves _ _ _ _ := ⟨e, rfl, fun _ _ hr => by cases hr⟩

/-- **Steps in a row take their values in a row.** -/
theorem bind (hx : Takes put m x y) (hf : ∀ a, Takes put k (f a) (h a)) :
    Takes put (m + k) (x >>= f) fun vs => y vs >>= fun a => h a (vs.drop m) where
  fills := by
    intro vs hvs
    obtain ⟨g, hxg, hyg⟩ := hx.fills vs (by omega)
    have hrest : k ≤ (vs.drop m).length := by
      rw [List.length_drop]
      omega
    choose g' hfg hhg using fun a => (hf a).fills (vs.drop m) hrest
    refine ⟨fun c => g c >>= fun r => g' r.1 r.2, ?_, ?_⟩
    · rw [List.take_add]
      exact hxg.bind hfg
    · exact hyg.bind hhg
  starves := by
    intro vs taken c hlt
    rcases Nat.lt_or_ge vs.length m with hm | hm
    · -- the first step fails already
      obtain ⟨e, he, hmore⟩ := hx.starves vs taken c hm
      refine ⟨e, Run.bind_of_error he, fun more r hr => ?_⟩
      obtain ⟨a, s, ha, -⟩ := Run.bind_eq_ok.1 hr
      exact hmore more (a, s) ha
    · -- the first step has its values, and the second one is left with too few
      obtain ⟨g, hxg, -⟩ := hx.fills vs hm
      have hsplit := values_split m vs
      have htake : (vs.take m).length = m := List.length_take_of_le hm
      have hdrop : (vs.drop m).length = vs.length - m := List.length_drop
      cases hg : g c with
      | error e =>
        -- the first step refuses the values it has, with or without more
        have hfail : ∀ more, x (put ⟨vs ++ more, taken⟩ c) = .error e := by
          intro more
          rw [hsplit, hxg, hg]
          rfl
        refine ⟨e, Run.bind_of_error ?_, fun more r hr => ?_⟩
        · have hnone := hfail []
          rwa [List.append_nil] at hnone
        · rw [Run.bind_of_error (hfail more)] at hr
          cases hr
      | ok p =>
        have hrun : ∀ more, x (put ⟨vs ++ more, taken⟩ c) =
            .ok (p.1, put ⟨vs.drop m ++ more, taken + m⟩ p.2) := by
          intro more
          rw [hsplit, hxg, hg, htake]
          rfl
        have hnone := hrun []
        rw [List.append_nil, List.append_nil] at hnone
        obtain ⟨e, he, hmore⟩ := (hf p.1).starves (vs.drop m) (taken + m) p.2 (by omega)
        refine ⟨e, by rw [Run.bind_of_ok hnone, he], fun more r hr => ?_⟩
        rw [Run.bind_of_ok (hrun more)] at hr
        have hposition : taken + m + (vs.drop m).length = taken + vs.length := by omega
        rw [hmore more r hr, hposition]

/-- What takes nothing may stand before any step. -/
theorem bind_zero (hx : Takes put 0 x y) (hf : ∀ a, Takes put k (f a) (h a)) :
    Takes put k (x >>= f) fun vs => y vs >>= fun a => h a vs := by
  have hbind := hx.bind hf
  rwa [Nat.zero_add] at hbind

end Takes

namespace Walk

/-! ## The steps of a walk -/

theorem takes_check (c : Except QueryError Unit) : Takes mk 0 (check c) fun _ => check c := by
  refine .of_actsAs (g := fun s => c.map fun _ => ((), s)) fun tail taken s => ?_
  cases c <;> rfl

theorem takes_lift {α : Type} (o : Except QueryError α) :
    Takes mk 0 (liftM o : Step α) fun _ => (liftM o : Step α) := by
  refine .of_actsAs (g := fun s => o.map fun a => (a, s)) fun tail taken s => ?_
  cases o <;> rfl

theorem takes_add (f : Clauses → Clauses) : Takes mk 0 (add f) fun _ => add f :=
  .of_actsAs (g := fun s => .ok ((), f s)) fun _ _ _ => rfl

theorem takes_addWindow (w : Window) : Takes mk 0 (addWindow w) fun _ => addWindow w := by
  refine .of_actsAs (g := fun s => if s.window.isSome then .error .duplicateLimit
    else .ok ((), { s with window := some w })) fun tail taken s => ?_
  dsimp only [addWindow]
  cases s.window <;> rfl

end Walk

end QueryLayer
