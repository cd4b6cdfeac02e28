import QueryLayer.Proofs.Walk.Substitution

/-!
# Outcomes that depend on runtime values

What a statement becomes depends on its runtime values only through its
markers. `Substitutes` says so for an outcome as a function of the values: it
compares the outcome with that of the filled statement, which gets no values at
all. A walk that takes its values gives such an outcome (`of_takes`), and
whatever a back end makes of the outcome afterwards keeps it so.
-/

namespace QueryLayer

variable {σ τ α β : Type} {put : Supply → τ → σ}

/-- With `m` values or more, the outcome is that of the filled statement, and
values beyond the first `m` change nothing. With fewer it is an error; if more
values would give a success, the error names the first one that is missing. -/
structure Substitutes (m : ℕ) (outcome filled : List Value → Except QueryError α) : Prop where
  fills : ∀ vs, m ≤ vs.length → outcome vs = filled vs
  extra : ∀ vs more, m ≤ vs.length → outcome (vs ++ more) = outcome vs
  starves : ∀ vs, vs.length < m → ∃ e, outcome vs = .error e ∧
    ∀ more r, outcome (vs ++ more) = .ok r → e = .missingPreparedValue vs.length

namespace Substitutes

variable {outcome filled : List Value → Except QueryError α} {m : ℕ}

/-- An outcome without values. -/
theorem const (o : Except QueryError α) : Substitutes 0 (fun _ => o) fun _ => o where
  fills _ _ := rfl
  extra _ _ _ := rfl
  starves _ hlt := absurd hlt (Nat.not_lt_zero _)

/-- A refusal may be said to depend on any number of values. -/
theorem fail (m : ℕ) (e : QueryError) :
    Substitutes (α := α) m (fun _ => .error e) fun _ => .error e where
  fills _ _ := rfl
  extra _ _ _ := rfl
  starves _ _ := ⟨e, rfl, fun _ _ hr => by cases hr⟩

/-- What is made of the outcome depends on the values as the outcome does. -/
theorem bind (h : Substitutes m outcome filled) (f : α → Except QueryError β) :
    Substitutes m (fun vs => outcome vs >>= f) fun vs => filled vs >>= f where
  fills vs hvs := by rw [h.fills vs hvs]
  extra vs more hvs := by rw [h.extra vs more hvs]
  starves vs hlt := by
    obtain ⟨e, he, hmore⟩ := h.starves vs hlt
    refine ⟨e, by rw [he]; rfl, fun more r hr => ?_⟩
    obtain ⟨a, ha, -⟩ := Run.outcome_bind_eq_ok.1 hr
    exact hmore more a ha

theorem map (h : Substitutes m outcome filled) (f : α → β) :
    Substitutes m (fun vs => (outcome vs).map f) fun vs => (filled vs).map f where
  fills vs hvs := by rw [h.fills vs hvs]
  extra vs more hvs := by rw [h.extra vs more hvs]
  starves vs hlt := by
    obtain ⟨e, he, hmore⟩ := h.starves vs hlt
    refine ⟨e, by rw [he]; rfl, fun more r hr => ?_⟩
    obtain ⟨a, ha, -⟩ := Run.outcome_map_eq_ok.1 hr
    exact hmore more a ha

/-- Something may be checked or prepared before. -/
theorem after {o : Except QueryError β} {f g : β → List Value → Except QueryError α}
    (h : ∀ b, Substitutes m (f b) (g b)) :
    Substitutes m (fun vs => o >>= fun b => f b vs) fun vs => o >>= fun b => g b vs := by
  cases o with
  | error e => exact .fail m e
  | ok b => exact h b

/-- **A step that takes its values gives an outcome that depends on them
alone**, if what follows forgets the supply that is left. -/
theorem of_takes {x : StateT σ (Except QueryError) α}
    {y : List Value → StateT σ (Except QueryError) α} (h : Takes put m x y) (c : τ)
    {f : α × σ → Except QueryError β} (hf : ∀ a s s' c, f (a, put s c) = f (a, put s' c)) :
    Substitutes m (fun vs => x.run (put (.ofList vs) c) >>= f)
      fun vs => (y vs).run (put (.ofList []) c) >>= f := by
  -- the outcome of a step that acts on enough values
  have hrun : ∀ {us : List Value} {z : StateT σ (Except QueryError) α} {g},
      ActsAs put us z g → ∀ tail, (z.run (put (.ofList (us ++ tail)) c) >>= f) =
        g c >>= fun r => f (r.1, put (.ofList []) r.2) := by
    intro us z g hz tail
    have hz := hz tail 0 c
    change z (put ⟨us ++ tail, 0⟩ c) >>= f = _
    rw [hz]
    cases g c with
    | error e => rfl
    | ok r => exact hf r.1 _ _ r.2
  refine ⟨fun vs hvs => ?_, fun vs more hvs => ?_, fun vs hlt => ?_⟩
  · -- the step and the filled step act in the same way
    obtain ⟨g, hx, hy⟩ := h.fills vs hvs
    have hleft := hrun hx (vs.drop m)
    have hright := hrun hy []
    rw [List.take_append_drop] at hleft
    exact hleft.trans hright.symm
  · -- more values only change the supply that is left
    obtain ⟨g, hx, -⟩ := h.fills vs hvs
    have hleft := hrun hx (vs.drop m ++ more)
    have hright := hrun hx (vs.drop m)
    rw [← values_split] at hleft
    rw [List.take_append_drop] at hright
    exact hleft.trans hright.symm
  · obtain ⟨e, he, hmore⟩ := h.starves vs 0 c hlt
    refine ⟨e, ?_, fun more r hr => ?_⟩
    · change x (put ⟨vs, 0⟩ c) >>= f = .error e
      rw [he]
      rfl
    · obtain ⟨a, ha, -⟩ := Run.outcome_bind_eq_ok.1 hr
      simpa using hmore more a ha

/-- The same where what follows cannot fail. -/
theorem map_of_takes {x : StateT σ (Except QueryError) α}
    {y : List Value → StateT σ (Except QueryError) α} (h : Takes put m x y) (c : τ) {p : α × σ → β}
    (hp : ∀ a s s' c, p (a, put s c) = p (a, put s' c)) :
    Substitutes m (fun vs => (x.run (put (.ofList vs) c)).map p)
      fun vs => ((y vs).run (put (.ofList []) c)).map p := by
  have hmap : ∀ o : Except QueryError (α × σ), o.map p = o >>= fun r => .ok (p r) := by
    intro o
    cases o <;> rfl
  simp only [hmap]
  exact of_takes h c fun a s s' c => congrArg Except.ok (hp a s s' c)

end Substitutes

namespace Plan

variable {r : Rules}

/-- **The plan of entries depends on the values of their markers.** -/
theorem substitutes_ofEntries (hr : r.Blind) (es : List Entry) :
    Substitutes (Entry.markersAll es) (fun vs => ofEntries r es vs)
      fun vs => ofEntries r (Entry.fillAll vs es) [] :=
  .map_of_takes (Entry.takes_collectAll hr es) Clauses.none fun _ _ _ _ => rfl

/-- The same for entries that assign. -/
theorem substitutes_ofChanges {assign : Assignment → Walk.Step α} (hr : r.Blind)
    (hassign : ∀ a, Takes Walk.mk a.value.markers (assign a) fun vs => assign (a.fill vs))
    (es : List Entry) :
    Substitutes (Entry.markersAll es) (fun vs => ofChanges r assign es vs)
      fun vs => ofChanges r assign (Entry.fillAll vs es) [] :=
  .map_of_takes (Entry.takes_collectChanges hr hassign es) Clauses.none fun _ _ _ _ => rfl

end Plan

end QueryLayer
