import QueryLayer.Proofs.Meaning.Entries

/-!
# Resolving the conditions of a formula

A walk resolves the conditions of its entries in the order of their meaning.
Here the meaning alone is resolved, condition by condition, and this touches the
supply only: the clauses are neither read nor changed (`ClauseFree`). Operators
may be put over the predicates as well as over the formulas
(`resolveAll_group`).
-/

namespace QueryLayer

open Walk

namespace Walk

variable {α β : Type}

/-- The step neither reads the clauses nor changes them. -/
def ClauseFree (x : Step α) : Prop :=
  ∀ ⦃s c a w⦄, x ⟨s, c⟩ = .ok (a, w) → ∀ c', x ⟨s, c'⟩ = .ok (a, ⟨w.supply, c'⟩)

namespace ClauseFree

variable {x : Step α} {f : α → Step β}

/-- A step of this kind leaves the clauses as they are. -/
theorem clauses_eq (hx : ClauseFree x) {w w' : Walk} {a : α} (h : x w = .ok (a, w')) :
    w'.clauses = w.clauses := by
  obtain ⟨s, c⟩ := w
  have hsame := hx h c
  rw [h, Except.ok.injEq, Prod.mk.injEq] at hsame
  rw [hsame.2]

theorem pure (a : α) : ClauseFree (Pure.pure a) := by
  intro s c b w h c'
  cases Run.pure_eq_ok.1 h
  exact Run.pure_eq_ok.2 rfl

theorem bind (hx : ClauseFree x) (hf : ∀ a, ClauseFree (f a)) : ClauseFree (x >>= f) := by
  intro s c b w h c'
  obtain ⟨a, m, ha, hb⟩ := Run.bind_eq_ok.1 h
  exact Run.bind_eq_ok.2 ⟨a, ⟨m.supply, c'⟩, hx ha c', hf a hb c'⟩

theorem check (c : Except QueryError Unit) : ClauseFree (check c) := by
  intro s cs u w h c'
  obtain ⟨hc, hw⟩ := check_eq_ok.1 h
  cases hw
  exact check_eq_ok.2 ⟨hc, rfl⟩

theorem stop (e : QueryError) : ClauseFree (α := α) (stop e) :=
  fun _ _ _ _ h => absurd h stop_ne_ok

theorem resolve (o : Operand) : ClauseFree (resolve o) := by
  intro s c v w h c'
  obtain ⟨u, s', hu, hw⟩ := resolve_eq_ok.1 h
  cases hw
  exact resolve_eq_ok.2 ⟨v, s', hu, rfl⟩

theorem lift (o : Except QueryError α) : ClauseFree (liftM o : Step α) := by
  intro s c a w h c'
  cases o with
  | error e => cases h
  | ok b =>
    cases h
    rfl

end ClauseFree

end Walk

namespace Condition

theorem clauseFree_criterion (statement : String) (c : Condition) :
    ClauseFree (c.criterion statement) := by
  unfold criterion
  split
  · exact .bind (.resolve _) fun _ => .pure _
  · exact .bind (.resolve _) fun _ => .pure _
  · exact .bind (.resolve _) fun _ => .pure _
  · exact .bind (.resolve _) fun _ => .pure _
  · exact .pure _
  · refine .bind (.resolve _) fun v => ?_
    split
    · exact .stop _
    · exact .pure _
  · split
    · exact .stop _
    · exact .bind (.resolve _) fun _ => .bind (.resolve _) fun _ => .pure _

theorem clauseFree_resolveTest (r : Rules) (c : Condition) : ClauseFree (c.resolveTest r) :=
  .bind (.check _) fun _ => .bind (c.clauseFree_criterion _) fun _ =>
    .bind (.check _) fun _ => .pure _

end Condition

namespace Formula

mutual

/-- The predicate of a formula, its conditions resolved from left to right. -/
def resolve (r : Rules) : Formula Condition → Step Predicate
  | .leaf c => return .test (← c.resolveTest r)
  | .not f => return .not (← resolve r f)
  | .all fs => return .all (← resolveAll r fs)
  | .any fs => return .any (← resolveAll r fs)

/-- The predicates of several formulas. -/
def resolveAll (r : Rules) : List (Formula Condition) → Step (List Predicate)
  | [] => return []
  | f :: fs => return (← resolve r f) :: (← resolveAll r fs)

end

variable {r : Rules} {fs gs : List (Formula Condition)}

mutual

theorem clauseFree_resolve (r : Rules) : ∀ f : Formula Condition, ClauseFree (resolve r f)
  | .leaf c => by
    rw [resolve]
    exact .bind (c.clauseFree_resolveTest r) fun _ => .pure _
  | .not f => by
    rw [resolve]
    exact .bind (clauseFree_resolve r f) fun _ => .pure _
  | .all fs => by
    rw [resolve]
    exact .bind (clauseFree_resolveAll r fs) fun _ => .pure _
  | .any fs => by
    rw [resolve]
    exact .bind (clauseFree_resolveAll r fs) fun _ => .pure _

theorem clauseFree_resolveAll (r : Rules) :
    ∀ fs : List (Formula Condition), ClauseFree (resolveAll r fs)
  | [] => by
    rw [resolveAll]
    exact .pure _
  | f :: fs => by
    rw [resolveAll]
    exact .bind (clauseFree_resolve r f) fun _ =>
      .bind (clauseFree_resolveAll r fs) fun _ => .pure _

end

/-- Formulas in a row are resolved in a row. -/
theorem resolveAll_append :
    resolveAll r (fs ++ gs) = (do return (← resolveAll r fs) ++ (← resolveAll r gs)) := by
  induction fs with
  | nil => simp [resolveAll]
  | cons f fs ih => simp [resolveAll, ih]

theorem resolveAll_map_not : resolveAll r (fs.map .not) = List.map .not <$> resolveAll r fs := by
  induction fs with
  | nil => simp [resolveAll]
  | cons f fs ih => simp [resolveAll, resolve, ih]

/-- An operator over formulas is resolved as its operands are, and is then put
over their predicates. -/
theorem resolveAll_group (kind : OperationKind) :
    resolveAll r (kind.group fs) = kind.combine <$> resolveAll r fs := by
  cases kind with
  | not => exact resolveAll_map_not
  | and => cases fs <;> simp [OperationKind.group, OperationKind.combine, resolveAll, resolve]
  | or => cases fs <;> simp [OperationKind.group, OperationKind.combine, resolveAll, resolve]

end Formula

end QueryLayer
