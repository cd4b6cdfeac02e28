import QueryLayer.Proofs.Walk.Parts

/-!
# What walks agree on

The rules of a back end refuse, and change nothing else. So two walks over the
same entries with the same values, each by rules of its own, yield the same
where both of them succeed (`Plan.eq_of_ofEntries`). This is shown step by step:
it holds of the small steps, and a sequence agrees if its parts do.

What a walk leaves besides its predicates comes from the entries that ask for
it, and without such an entry there is none (`Plan.clauses_of_ofEntries`).
-/

namespace QueryLayer

namespace Walk

variable {α β : Type} {x y : Step α} {f g : α → Step β}

/-! ## Steps that agree -/

/-- Where both steps succeed, they yield the same and leave the same walk. -/
def Agree (x y : Step α) : Prop :=
  ∀ ⦃w : Walk⦄ ⦃r r' : α × Walk⦄, x w = .ok r → y w = .ok r' → r = r'

theorem Agree.refl (x : Step α) : Agree x x := by
  intro w r r' h h'
  rw [h] at h'
  exact Except.ok.inj h'

theorem Agree.bind (hx : Agree x y) (hf : ∀ a, Agree (f a) (g a)) :
    Agree (x >>= f) (y >>= g) := by
  intro w r r' h h'
  obtain ⟨a, m, ha, hr⟩ := Run.bind_eq_ok.1 h
  obtain ⟨a', m', ha', hr'⟩ := Run.bind_eq_ok.1 h'
  obtain ⟨rfl, rfl⟩ := Prod.mk.inj (hx ha ha')
  exact hf a hr hr'

/-- A check that passes leaves the walk as it is, whatever it checks. -/
theorem agree_check (c c' : Except QueryError Unit) : Agree (check c) (check c') := by
  intro w r r' h h'
  rw [← (check_eq_ok.1 h).2, ← (check_eq_ok.1 h').2]

/-- A step that ends the walk agrees with every step. -/
theorem agree_stop (e : QueryError) (y : Step α) : Agree (stop e) y := by
  intro w r r' h
  exact absurd h stop_ne_ok

end Walk

open Walk

namespace Condition

/-- The name of the statement is part of messages only. -/
theorem agree_criterion (statement statement' : String) (c : Condition) :
    Agree (c.criterion statement) (c.criterion statement') := by
  cases hk : c.kind with
  | between =>
    simp only [criterion, hk]
    cases c.upperBound with
    | none => exact agree_stop _ _
    | some upper => exact .refl _
  | equals | like | lower | higher | null | oneOf =>
    simp only [criterion, hk]
    exact .refl _

theorem agree_resolveTest (r r' : Rules) (c : Condition) :
    Agree (c.resolveTest r) (c.resolveTest r') := by
  rw [resolveTest, resolveTest]
  refine (agree_check _ _).bind fun _ => ?_
  refine (c.agree_criterion _ _).bind fun k => ?_
  exact (agree_check _ _).bind fun _ => .refl _

end Condition

namespace Entry

mutual

/-- **Rules do not change what an entry yields.** -/
theorem agree_collect (r r' : Rules) : ∀ e : Entry, Agree (collect r e) (collect r' e)
  | .condition c => by
    rw [collect, collect]
    exact (c.agree_resolveTest r r').bind fun t => .refl _
  | .operation kind es => by
    rw [collect, collect]
    exact (agree_collectAll r r' es).bind fun ps => .refl _
  | .join _ | .orderBy _ | .groupBy _ => by
    rw [collect, collect]
    exact (agree_check _ _).bind fun _ => .refl _
  | .limit w => by
    rw [collect, collect]
    exact .refl _
  | .set a => by
    rw [collect]
    exact agree_stop _ _

/-- The same for several entries. -/
theorem agree_collectAll (r r' : Rules) : ∀ es : List Entry,
    Agree (collectAll r es) (collectAll r' es)
  | [] => by
    rw [collectAll, collectAll]
    exact .refl _
  | e :: es => by
    rw [collectAll, collectAll]
    refine (agree_collect r r' e).bind fun ps => ?_
    exact (agree_collectAll r r' es).bind fun qs => .refl _

end

mutual

/-- The entry is a join, a limit or a key, or holds one at some depth. -/
def holdsClause : Entry → Bool
  | .join _ | .limit _ | .orderBy _ | .groupBy _ => true
  | .operation _ es => anyClause es
  | .condition _ | .set _ => false

/-- One of the entries holds a join, a limit or a key. -/
def anyClause : List Entry → Bool
  | [] => false
  | e :: es => holdsClause e || anyClause es

end

mutual

/-- Such an entry has no parts but assignments. -/
theorem parts_of_holdsClause : ∀ {e : Entry}, e.holdsClause = false →
    e.parts = { Parts.none with assignments := e.parts.assignments }
  | .condition _, _ => rfl
  | .operation kind es, h => by
    rw [holdsClause] at h
    rw [parts]
    exact partsAll_of_anyClause h
  | .set _, _ => rfl
  | .join _, h | .limit _, h | .orderBy _, h | .groupBy _, h => by simp [holdsClause] at h

theorem partsAll_of_anyClause : ∀ {es : List Entry}, anyClause es = false →
    partsAll es = { Parts.none with assignments := (partsAll es).assignments }
  | [], _ => rfl
  | e :: es, h => by
    rw [anyClause, Bool.or_eq_false_iff] at h
    rw [partsAll, parts_of_holdsClause h.1, partsAll_of_anyClause h.2]
    rfl

end

end Entry

namespace Plan

variable {r r' : Rules} {es : List Entry} {values : List Value} {p p' : Plan}

/-- **Back ends that both accept a search make the same plan of it.** -/
theorem eq_of_ofEntries (h : ofEntries r es values = .ok p)
    (h' : ofEntries r' es values = .ok p') : p = p' := by
  obtain ⟨a, ha, rfl⟩ := Run.outcome_map_eq_ok.1 h
  obtain ⟨a', ha', rfl⟩ := Run.outcome_map_eq_ok.1 h'
  rw [Entry.agree_collectAll r r' es ha ha']

/-- A plan has the clauses that its entries ask for. -/
theorem clauses_of_ofEntries (hes : Entry.anyClause es = false)
    (h : ofEntries r es values = .ok p) : p.toClauses = .none := by
  obtain ⟨⟨ps, w⟩, hw, rfl⟩ := Run.outcome_map_eq_ok.1 h
  obtain ⟨-, -, hgrows⟩ := Entry.collectAll_eq_ok.1 hw
  rw [Entry.partsAll_of_anyClause hes] at hgrows
  exact Parts.grows_assignments.1 hgrows

end Plan

end QueryLayer
