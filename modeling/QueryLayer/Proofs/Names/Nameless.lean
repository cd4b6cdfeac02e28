import QueryLayer.Proofs.Walk.Changes

/-!
# Statements without names

A statement is made nameless by putting one and the same name in the place of
every other, and nothing in the place of each text that a column has as its
default. Two statements that differ in names and such texts only are the same
when they are nameless.

No walk looks at a name: where a statement is walked, so is the nameless one,
and the plan it yields is the plan of the statement made nameless
(`Plan.ofEntries_nameless`, `Plan.ofChanges_nameless`).
-/

namespace QueryLayer

/-- The name that stands in the place of every other. -/
def anyName : String := "x"

/-! ## Entries -/

namespace CollectionRef

/-- The reference with other names. -/
def nameless (_ : CollectionRef) : CollectionRef := ⟨anyName, anyName⟩

end CollectionRef

namespace FieldRef

/-- The reference with another name for each part that is given. -/
def nameless (f : FieldRef) : FieldRef :=
  ⟨f.database.map fun _ => anyName, f.collection.map fun _ => anyName, anyName⟩

end FieldRef

namespace Target

/-- The target without its names. -/
def nameless (t : Target) : Target := { t with field := t.field.nameless }

end Target

namespace Condition

/-- The condition without its names. What it compares with stays. -/
def nameless (c : Condition) : Condition := { c with target := c.target.nameless }

end Condition

namespace JoinPair

/-- The equality without its names. -/
def nameless (p : JoinPair) : JoinPair :=
  ⟨p.collection1.nameless, anyName, p.collection2.map CollectionRef.nameless, anyName⟩

end JoinPair

namespace Join

/-- The join without its names. -/
def nameless (j : Join) : Join :=
  { j with collection := j.collection.nameless, pairs := j.pairs.map JoinPair.nameless }

end Join

namespace SortKey

/-- The sort key without its names. -/
def nameless (k : SortKey) : SortKey := { k with target := k.target.nameless }

end SortKey

namespace Assignment

/-- The assignment without its names. What it assigns stays. -/
def nameless (a : Assignment) : Assignment := { a with field := a.field.nameless }

end Assignment

namespace Entry

mutual

/-- The entry without its names. -/
def nameless : Entry → Entry
  | .condition c => .condition c.nameless
  | .operation kind es => .operation kind (namelessAll es)
  | .join j => .join j.nameless
  | .limit w => .limit w
  | .orderBy k => .orderBy k.nameless
  | .groupBy t => .groupBy t.nameless
  | .set a => .set a.nameless

/-- The entries without their names. -/
def namelessAll : List Entry → List Entry
  | [] => []
  | e :: es => nameless e :: namelessAll es

end

end Entry

/-! ## Statements -/

namespace Value

mutual

/-- The value with nothing in its texts. -/
def nameless : Value → Value
  | .text _ => .text ""
  | .list vs => .list (namelessAll vs)
  | v => v

/-- The values with nothing in their texts. -/
def namelessAll : List Value → List Value
  | [] => []
  | v :: vs => nameless v :: namelessAll vs

end

end Value

namespace Projection

/-- The column of a result without its names. -/
def nameless (p : Projection) : Projection :=
  ⟨p.target.nameless, p.label.map fun _ => anyName⟩

end Projection

namespace Column

/-- The column without its name, and with nothing in the texts of its default. -/
def nameless (c : Column) : Column :=
  { c with field := anyName, default := c.default.map Value.nameless }

end Column

namespace ForeignKey

/-- The foreign key without its names. -/
def nameless (k : ForeignKey) : ForeignKey :=
  { k with collection := k.collection.nameless, field := anyName }

end ForeignKey

namespace Definition

/-- The line of a definition without its names. -/
def nameless : Definition → Definition
  | .column c => .column c.nameless
  | .foreignKey _ key => .foreignKey anyName key.nameless

end Definition

namespace Search

/-- The search without its names. -/
def nameless (s : Search) : Search := ⟨s.collection.nameless, Entry.namelessAll s.entries⟩

end Search

namespace Find

/-- The find without its names. -/
def nameless (s : Find) : Find := ⟨s.toSearch.nameless, s.projection.map Projection.nameless⟩

end Find

namespace Insert

/-- The insert without its names. -/
def nameless (s : Insert) : Insert :=
  ⟨s.collection.nameless, s.columns.map fun c => { c with field := anyName }⟩

end Insert

namespace Create

/-- The create without its names. The storage engine stays. -/
def nameless (s : Create) : Create :=
  ⟨s.collection.nameless, s.definitions.map Definition.nameless, s.engine,
    s.included.map Find.nameless⟩

end Create

namespace Statement

/-- The statement without its names. -/
def nameless : Statement → Statement
  | .find s => .find s.nameless
  | .insert s => .insert s.nameless
  | .update s => .update s.nameless
  | .delete s => .delete s.nameless
  | .replace s => .replace s.nameless
  | .create s => .create s.nameless
  | .drop (.collection c) => .drop (.collection c.nameless)
  | .drop (.database _) => .drop (.database anyName)
  | .clear c => .clear c.nameless
  | .count s => .count s.nameless

end Statement

/-! ## Plans -/

namespace Clauses

/-- The clauses without their names. -/
def nameless (c : Clauses) : Clauses where
  joins := c.joins.map Join.nameless
  groups := c.groups.map Target.nameless
  sorts := c.sorts.map SortKey.nameless
  window := c.window

end Clauses

namespace Test

/-- The test without its names. -/
def nameless (t : Test) : Test := { t with target := t.target.nameless }

end Test

namespace Predicate

mutual

/-- The predicate without its names. -/
def nameless : Predicate → Predicate
  | .test t => .test t.nameless
  | .not p => .not (nameless p)
  | .all ps => .all (namelessAll ps)
  | .any ps => .any (namelessAll ps)

/-- The predicates without their names. -/
def namelessAll : List Predicate → List Predicate
  | [] => []
  | p :: ps => nameless p :: namelessAll ps

end

theorem namelessAll_eq_map (ps : List Predicate) : namelessAll ps = ps.map nameless := by
  induction ps with
  | nil => rfl
  | cons p ps ih => rw [namelessAll, List.map_cons, ih]

end Predicate

/-- An operator does not look at the names of its operands. -/
theorem OperationKind.combine_nameless (kind : OperationKind) (ps : List Predicate) :
    (kind.combine ps).map Predicate.nameless = kind.combine (ps.map Predicate.nameless) := by
  cases kind with
  | not => simp [combine, Function.comp_def, Predicate.nameless]
  | and => cases ps <;> simp [combine, Predicate.nameless, Predicate.namelessAll_eq_map]
  | or => cases ps <;> simp [combine, Predicate.nameless, Predicate.namelessAll_eq_map]

namespace Plan

/-- The plan without its names. -/
def nameless (p : Plan) : Plan := ⟨p.toClauses.nameless, p.predicates.map Predicate.nameless⟩

end Plan

/-! ## The walk -/

namespace Rules

/-- The rules do not look at names. -/
structure Nameless (r : Rules) : Prop where
  condition : ∀ c, r.condition c = .ok () → r.condition c.nameless = .ok ()
  test : ∀ t, r.test t = .ok () → r.test t.nameless = .ok ()
  join : ∀ j, r.join j = .ok () → r.join j.nameless = .ok ()
  sortKey : ∀ k, r.sortKey k = .ok () → r.sortKey k.nameless = .ok ()
  groupKey : ∀ t, r.groupKey t = .ok () → r.groupKey t.nameless = .ok ()

end Rules

namespace Walk

variable {α β γ δ : Type}

/-- The walk without the names of its clauses. -/
def nameless (w : Walk) : Walk := ⟨w.supply, w.clauses.nameless⟩

/-- Where `x` succeeds, `y` does so without the names, and yields what `g` makes
of the outcome. -/
def Follows (g : α → β) (x : Step α) (y : Step β) : Prop :=
  ∀ ⦃w a w'⦄, x w = .ok (a, w') → y w.nameless = .ok (g a, w'.nameless)

namespace Follows

theorem pure {g : α → β} {a : α} {b : β} (h : b = g a) : Follows g (Pure.pure a) (Pure.pure b) := by
  intro w a' w' ha
  cases Run.pure_eq_ok.1 ha
  exact Run.pure_eq_ok.2 (by rw [h])

/-- **Steps in a row are followed in a row.** -/
theorem bind {g : α → β} {h : γ → δ} {x : Step α} {y : Step β} {f : α → Step γ} {k : β → Step δ}
    (hx : Follows g x y) (hf : ∀ a, Follows h (f a) (k (g a))) : Follows h (x >>= f) (y >>= k) := by
  intro w c w' hc
  obtain ⟨a, m, ha, hc⟩ := Run.bind_eq_ok.1 hc
  exact Run.bind_eq_ok.2 ⟨g a, m.nameless, hx ha, hf a hc⟩

theorem stop {g : α → β} {e : QueryError} {y : Step β} : Follows g (stop e) y :=
  fun _ _ _ h => absurd h stop_ne_ok

theorem resolve (o : Operand) : Follows id (resolve o) (resolve o) := by
  intro w v w' h
  obtain ⟨u, s, hu, hw⟩ := resolve_eq_ok.1 h
  cases hw
  exact resolve_eq_ok.2 ⟨v, s, hu, rfl⟩

theorem check {c c' : Except QueryError Unit} (h : c = .ok () → c' = .ok ()) :
    Follows id (check c) (check c') := by
  intro w u w' hw
  obtain ⟨hc, hw⟩ := check_eq_ok.1 hw
  cases hw
  exact check_eq_ok.2 ⟨h hc, rfl⟩

theorem add {f k : Clauses → Clauses} (h : ∀ c, k c.nameless = (f c).nameless) :
    Follows id (add f) (add k) := by
  intro w u w' hw
  cases add_eq_ok.1 hw
  exact add_eq_ok.2 (by rw [nameless, nameless, h])

theorem addWindow (v : Window) : Follows id (addWindow v) (addWindow v) := by
  intro w u w' hw
  obtain ⟨hnone, hw⟩ := addWindow_eq_ok.1 hw
  cases hw
  exact addWindow_eq_ok.2 ⟨hnone, rfl⟩

end Follows

end Walk

open Walk

namespace Condition

theorem follows_criterion (statement : String) (c : Condition) :
    Follows id (c.criterion statement) (c.nameless.criterion statement) := by
  unfold criterion
  cases hk : c.kind with
  | equals | like | lower | higher =>
    simp only [nameless, hk]
    exact .bind (.resolve _) fun _ => .pure rfl
  | null =>
    simp only [nameless, hk]
    exact .pure rfl
  | oneOf =>
    simp only [nameless, hk]
    refine .bind (.resolve _) fun v => ?_
    -- only the error names the field
    by_cases hv : v.toItems.isEmpty
    · simp only [hv, if_true]
      exact .stop
    · simp only [id, if_neg hv]
      exact .pure rfl
  | between =>
    simp only [nameless, hk]
    cases c.upperBound with
    | none => exact .stop
    | some upper => exact .bind (.resolve _) fun _ => .bind (.resolve _) fun _ => .pure rfl

theorem follows_resolveTest {r : Rules} (hr : r.Nameless) (c : Condition) :
    Follows Test.nameless (c.resolveTest r) (c.nameless.resolveTest r) :=
  .bind (.check (hr.condition c)) fun _ => .bind (c.follows_criterion _) fun k =>
    .bind (.check (hr.test ⟨c.target, k⟩)) fun _ => .pure rfl

end Condition

namespace Entry

variable {r : Rules}

mutual

/-- **A walk does not look at names.** -/
theorem follows_collect (hr : r.Nameless) : ∀ e : Entry,
    Follows (List.map Predicate.nameless) (collect r e) (collect r e.nameless)
  | .condition c => by
    simp only [collect, nameless]
    exact .bind (c.follows_resolveTest hr) fun t => .pure (by simp [Predicate.nameless])
  | .operation kind es => by
    simp only [collect, nameless]
    exact .bind (follows_collectAll hr es) fun ps => .pure (kind.combine_nameless ps).symm
  | .join j => by
    simp only [collect, nameless]
    exact .bind (.check (hr.join j)) fun _ =>
      .bind (.add fun c => by simp [Clauses.nameless]) fun _ => .pure rfl
  | .limit w => by
    simp only [collect, nameless]
    exact .bind (.addWindow w) fun _ => .pure rfl
  | .orderBy k => by
    simp only [collect, nameless]
    exact .bind (.check (hr.sortKey k)) fun _ =>
      .bind (.add fun c => by simp [Clauses.nameless]) fun _ => .pure rfl
  | .groupBy t => by
    simp only [collect, nameless]
    exact .bind (.check (hr.groupKey t)) fun _ =>
      .bind (.add fun c => by simp [Clauses.nameless]) fun _ => .pure rfl
  | .set a => by
    simp only [collect]
    exact .stop

theorem follows_collectAll (hr : r.Nameless) : ∀ es : List Entry,
    Follows (List.map Predicate.nameless) (collectAll r es) (collectAll r (namelessAll es))
  | [] => by
    simp only [collectAll, namelessAll]
    exact .pure rfl
  | e :: es => by
    simp only [collectAll, namelessAll]
    exact .bind (follows_collect hr e) fun ps =>
      .bind (follows_collectAll hr es) fun qs => .pure (by simp)

end

theorem follows_collectChanges {α : Type} {g : α → α} {assign : Assignment → Step α}
    (hr : r.Nameless) (hassign : ∀ a, Follows g (assign a) (assign a.nameless)) (es : List Entry) :
    Follows (fun x => (x.1.map g, x.2.map Predicate.nameless)) (collectChanges r assign es)
      (collectChanges r assign (namelessAll es)) := by
  induction es with
  | nil =>
    simp only [collectChanges, namelessAll]
    exact .pure rfl
  | cons e es ih =>
    cases e with
    | set a =>
      simp only [collectChanges, namelessAll, nameless]
      exact .bind (hassign a) fun x => .bind ih fun y => .pure rfl
    | condition _ | operation _ _ | join _ | limit _ | orderBy _ | groupBy _ =>
      have hhead := follows_collect hr
      simp only [collectChanges, namelessAll, nameless]
      refine .bind (hhead _) fun ps => .bind ih fun y => .pure ?_
      simp

end Entry

namespace Plan

variable {r : Rules} {es : List Entry} {values : List Value} {p : Plan}

/-- The nameless entries make the plan without its names. -/
theorem ofEntries_nameless (hr : r.Nameless) (h : ofEntries r es values = .ok p) :
    ofEntries r (Entry.namelessAll es) values = .ok p.nameless := by
  obtain ⟨⟨ps, w⟩, hw, rfl⟩ := Run.outcome_map_eq_ok.1 h
  exact Run.outcome_map_eq_ok.2 ⟨_, Entry.follows_collectAll hr es hw, rfl⟩

/-- The same for a plan with assignments and their values. -/
theorem ofChanges_nameless {xs : List (Assignment × Value)} (hr : r.Nameless)
    (h : ofChanges r Assignment.resolved es values = .ok (xs, p)) :
    ofChanges r Assignment.resolved (Entry.namelessAll es) values =
      .ok (xs.map (Prod.map Assignment.nameless id), p.nameless) := by
  obtain ⟨⟨⟨ys, ps⟩, w⟩, hw, hp⟩ := Run.outcome_map_eq_ok.1 h
  cases hp
  have hassign : ∀ a : Assignment,
      Follows (Prod.map Assignment.nameless id) a.resolved a.nameless.resolved :=
    fun a => .bind (.resolve a.value) fun v => .pure rfl
  exact Run.outcome_map_eq_ok.2 ⟨_, Entry.follows_collectChanges hr hassign es hw, rfl⟩

end Plan

end QueryLayer
