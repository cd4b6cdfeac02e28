import QueryLayer.Proofs.Walk.Takes

/-!
# Markers and the values in their place

The markers of an entry are those whose value a walk asks for: a test for null
asks for none, and only a range asks for its upper bound. They are counted and
filled in the order of the walk, so the first value goes to the first marker,
and what an entry does not take is left to the entries behind it.

A walk over entries takes one value for each of their markers, and does the same
as the walk over the filled entries (`takes_collectAll`, `takes_collectChanges`).
-/

namespace QueryLayer

namespace Operand

/-- The number of markers in an operand. -/
def markers : Operand → ℕ
  | .literal _ => 0
  | .prepared => 1

/-- The operand with a value in the place of its marker. -/
def fill (vs : List Value) : Operand → Operand
  | .literal v => .literal v
  | .prepared => (vs.head?.map literal).getD .prepared

end Operand

namespace Condition

/-- The number of markers of a condition whose values are asked for. -/
def markers (c : Condition) : ℕ :=
  match c.kind with
  | .null => 0
  | .between => c.value.markers + (c.upperBound.map Operand.markers).getD 0
  | _ => c.value.markers

/-- The condition with values in the place of its markers, the value before the
upper bound. -/
def fill (vs : List Value) (c : Condition) : Condition :=
  match c.kind with
  | .null => c
  | .between =>
    { c with
      value := c.value.fill vs
      upperBound := c.upperBound.map (Operand.fill (vs.drop c.value.markers)) }
  | _ => { c with value := c.value.fill vs }

end Condition

namespace Assignment

/-- The assignment with a value in the place of its marker. -/
def fill (vs : List Value) (a : Assignment) : Assignment := { a with value := a.value.fill vs }

end Assignment

namespace Entry

mutual

/-- The number of markers of an entry. -/
def markers : Entry → ℕ
  | .condition c => c.markers
  | .operation _ es => markersAll es
  | .set a => a.value.markers
  | _ => 0

/-- The number of markers of several entries. -/
def markersAll : List Entry → ℕ
  | [] => 0
  | e :: es => markers e + markersAll es

end

mutual

/-- The entry with values in the place of its markers. -/
def fill (vs : List Value) : Entry → Entry
  | .condition c => .condition (c.fill vs)
  | .operation kind es => .operation kind (fillAll vs es)
  | .set a => .set (a.fill vs)
  | e => e

/-- The entries with values in the place of their markers, entry by entry. -/
def fillAll (vs : List Value) : List Entry → List Entry
  | [] => []
  | e :: es => fill vs e :: fillAll (vs.drop (markers e)) es

end

end Entry

/-- The rules do not look at the operands of a condition. -/
def Rules.Blind (r : Rules) : Prop :=
  ∀ (c : Condition) (vs : List Value), r.condition (c.fill vs) = r.condition c

/-! ## Conditions -/

/-- **A marker takes one value**, and a literal takes none. -/
theorem Takes.of_resolve {σ τ : Type} {put : Supply → τ → σ}
    {step : Operand → StateT σ (Except QueryError) Value}
    (hstep : ∀ o s c, step o (put s c) = (o.resolve s).map fun r => (r.1, put r.2 c))
    (o : Operand) : Takes put o.markers (step o) fun vs => step (o.fill vs) := by
  have hliteral : ∀ v, ActsAs put [] (step (.literal v)) fun c => .ok (v, c) :=
    fun v tail taken c => hstep (.literal v) ⟨tail, taken⟩ c
  cases o with
  | literal v => exact .of_actsAs (hliteral v)
  | prepared =>
    refine ⟨fun vs hvs => ?_, fun vs taken c hlt => ?_⟩
    · cases vs with
      | nil => simp [Operand.markers] at hvs
      | cons v vs =>
        have htake : ActsAs put [v] (step .prepared) fun c => .ok (v, c) :=
          fun tail taken c => hstep .prepared ⟨v :: tail, taken⟩ c
        exact ⟨fun c => .ok (v, c), htake, hliteral v⟩
    · have hvs : vs = [] := by simpa [Operand.markers] using hlt
      subst hvs
      exact ⟨.missingPreparedValue taken, hstep .prepared ⟨[], taken⟩ c, fun _ _ _ => rfl⟩

theorem Walk.takes_resolve (o : Operand) :
    Takes mk o.markers (resolve o) fun vs => resolve (o.fill vs) :=
  .of_resolve (fun _ _ _ => rfl) o

namespace Condition

variable {r : Rules}

@[simp] theorem target_fill (vs : List Value) (c : Condition) : (c.fill vs).target = c.target := by
  unfold fill
  split <;> rfl

/-- **The criterion of a condition takes the values of its markers.** -/
theorem takes_criterion (statement : String) (c : Condition) :
    Takes Walk.mk c.markers (c.criterion statement) fun vs => (c.fill vs).criterion statement := by
  obtain ⟨kind, target, value, upper⟩ := c
  have hvalue := Walk.takes_resolve value
  cases kind with
  | equals => exact hvalue.bind fun v => .pure (Criterion.equals v)
  | like => exact hvalue.bind fun v => .pure (Criterion.like v)
  | lower => exact hvalue.bind fun v => .pure (Criterion.lower v)
  | higher => exact hvalue.bind fun v => .pure (Criterion.higher v)
  | null => exact .pure Criterion.null
  | oneOf =>
    have hitems : ∀ v : Value, Takes Walk.mk 0
        (if v.toItems.isEmpty then Walk.stop (.emptyInList target.field.display)
          else return Criterion.oneOf v.toItems)
        fun _ => if v.toItems.isEmpty then Walk.stop (.emptyInList target.field.display)
          else return Criterion.oneOf v.toItems := by
      intro v
      by_cases hempty : v.toItems.isEmpty
      · simp only [if_pos hempty]
        exact .fail 0 _
      · simp only [if_neg hempty]
        exact .pure _
    exact hvalue.bind hitems
  | between =>
    cases upper with
    | none => exact .fail _ _
    | some o =>
      exact hvalue.bind fun l => (Walk.takes_resolve o).bind fun u => .pure (Criterion.between l u)

theorem takes_resolveTest (hr : r.Blind) (c : Condition) :
    Takes Walk.mk c.markers (c.resolveTest r) fun vs => (c.fill vs).resolveTest r := by
  have htest : ∀ k, Takes Walk.mk 0
      (do Walk.check (r.test ⟨c.target, k⟩); return (⟨c.target, k⟩ : Test))
      fun _ => do Walk.check (r.test ⟨c.target, k⟩); return (⟨c.target, k⟩ : Test) :=
    fun k => (Walk.takes_check _).bind fun _ => .pure _
  have hsteps := (Walk.takes_check (r.condition c)).bind_zero fun _ =>
    (takes_criterion r.statement c).bind htest
  have hcondition := hr c
  simp only [resolveTest, hcondition, target_fill]
  exact hsteps

end Condition

/-! ## Entries -/

namespace Entry

open Walk

variable {r : Rules}

mutual

/-- **An entry takes the values of its markers.** -/
theorem takes_collect (hr : r.Blind) : ∀ e : Entry,
    Takes Walk.mk e.markers (collect r e) fun vs => collect r (fill vs e)
  | .condition c => by
    simp only [collect, fill, markers]
    exact (c.takes_resolveTest hr).bind fun t => .pure _
  | .operation kind es => by
    simp only [collect, fill, markers]
    exact (takes_collectAll hr es).bind fun ps => .pure _
  | .join j => by
    simp only [collect, fill, markers]
    exact (takes_check _).bind fun _ => (takes_add _).bind fun _ => .pure _
  | .limit w => by
    simp only [collect, fill, markers]
    exact (takes_addWindow w).bind fun _ => .pure _
  | .orderBy k => by
    simp only [collect, fill, markers]
    exact (takes_check _).bind fun _ => (takes_add _).bind fun _ => .pure _
  | .groupBy t => by
    simp only [collect, fill, markers]
    exact (takes_check _).bind fun _ => (takes_add _).bind fun _ => .pure _
  | .set a => by
    simp only [collect, fill, markers]
    exact .fail _ _

/-- The same for several entries. -/
theorem takes_collectAll (hr : r.Blind) : ∀ es : List Entry,
    Takes Walk.mk (markersAll es) (collectAll r es) fun vs => collectAll r (fillAll vs es)
  | [] => by
    simp only [collectAll, fillAll, markersAll]
    exact .pure _
  | e :: es => by
    simp only [collectAll, fillAll, markersAll]
    exact (takes_collect hr e).bind fun ps => (takes_collectAll hr es).bind fun qs => .pure _

end

/-- A walk that assigns takes the values of all markers, an assignment in its
place among the other entries. -/
theorem takes_collectChanges {α : Type} {assign : Assignment → Step α} (hr : r.Blind)
    (hassign : ∀ a, Takes Walk.mk a.value.markers (assign a) fun vs => assign (a.fill vs)) :
    ∀ es : List Entry, Takes Walk.mk (markersAll es) (collectChanges r assign es)
      fun vs => collectChanges r assign (fillAll vs es) := by
  intro es
  induction es with
  | nil =>
    simp only [collectChanges, fillAll, markersAll]
    exact .pure _
  | cons e es ih =>
    have hother : ∀ step : Step (List Predicate), ∀ filled m,
        Takes Walk.mk m step filled → Takes Walk.mk (m + markersAll es)
          (do let ps ← step; let x ← collectChanges r assign es; return (x.1, ps ++ x.2))
          fun vs => do
            let ps ← filled vs
            let x ← collectChanges r assign (fillAll (vs.drop m) es)
            return (x.1, ps ++ x.2) := by
      intro step filled m hstep
      exact hstep.bind fun ps => ih.bind fun x => .pure _
    cases e with
    | set a =>
      simp only [collectChanges, fillAll, fill, markersAll, markers]
      exact (hassign a).bind fun x => ih.bind fun p => .pure _
    | condition _ | operation _ _ | join _ | limit _ | orderBy _ | groupBy _ =>
      simp only [collectChanges, fillAll, fill, markersAll]
      exact hother _ _ _ (takes_collect hr _)

end Entry

end QueryLayer
