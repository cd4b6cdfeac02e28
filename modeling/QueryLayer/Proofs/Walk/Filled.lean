import QueryLayer.Proofs.Walk.Parts
import QueryLayer.Proofs.Walk.Substitution

/-!
# Entries with values in their places

Filling reaches the operands of an entry and nothing else. The entries stay where
they are, their conditions keep their kinds and targets, their assignments keep
their fields and calculations, and all that is no operand is the same as before.
With a value for each marker no marker is left (`Entry.markersAll_fillAll`).
-/

namespace QueryLayer

/-! ## The conditions of entries -/

theorem OperationKind.leavesAll_group {α : Type} (kind : OperationKind) (fs : List (Formula α)) :
    Formula.leavesAll (kind.group fs) = Formula.leavesAll fs := by
  have hnot : Formula.leavesAll (fs.map .not) = Formula.leavesAll fs := by
    induction fs with
    | nil => rfl
    | cons f fs ih => rw [List.map_cons, Formula.leavesAll, Formula.leavesAll, Formula.leaves, ih]
  cases kind with
  | not => exact hnot
  | and => cases fs <;> simp [group, Formula.leavesAll, Formula.leaves]
  | or => cases fs <;> simp [group, Formula.leavesAll, Formula.leaves]

theorem Formula.leavesAll_append {α : Type} (fs gs : List (Formula α)) :
    leavesAll (fs ++ gs) = leavesAll fs ++ leavesAll gs := by
  induction fs with
  | nil => rfl
  | cons f fs ih => rw [List.cons_append, leavesAll, leavesAll, ih, List.append_assoc]

namespace Entry

mutual

/-- The conditions of an entry, at any depth. -/
def conditions : Entry → List Condition
  | .condition c => [c]
  | .operation _ es => conditionsAll es
  | .join _ | .limit _ | .orderBy _ | .groupBy _ | .set _ => []

/-- The conditions of several entries. -/
def conditionsAll : List Entry → List Condition
  | [] => []
  | e :: es => conditions e ++ conditionsAll es

end

mutual

/-- The conditions are the leaves of the meaning. -/
theorem leavesAll_formulas : ∀ e : Entry, Formula.leavesAll e.formulas = e.conditions
  | .condition c => by simp [formulas, conditions, Formula.leavesAll, Formula.leaves]
  | .operation kind es => by
    rw [formulas, kind.leavesAll_group, leavesAll_formulasAll es, conditions]
  | .join _ | .limit _ | .orderBy _ | .groupBy _ | .set _ => rfl

/-- The same for several entries. -/
theorem leavesAll_formulasAll : ∀ es : List Entry,
    Formula.leavesAll (formulasAll es) = conditionsAll es
  | [] => rfl
  | e :: es => by
    rw [formulasAll, Formula.leavesAll_append, leavesAll_formulas e, leavesAll_formulasAll es,
      conditionsAll]

end

mutual

/-- The markers of an entry are those of its conditions and assignments. -/
theorem markers_eq_zero_iff : ∀ e : Entry, e.markers = 0 ↔
    (∀ c ∈ e.conditions, c.markers = 0) ∧ ∀ a ∈ e.parts.assignments, a.value.markers = 0
  | .condition c => by simp [markers, conditions, parts, Parts.none]
  | .operation _ es => by
    rw [markers, conditions, parts]
    exact markersAll_eq_zero_iff es
  | .set a => by simp [markers, conditions, parts]
  | .join _ | .limit _ | .orderBy _ | .groupBy _ => by simp [markers, conditions, parts, Parts.none]

/-- The same for several entries. -/
theorem markersAll_eq_zero_iff : ∀ es : List Entry, markersAll es = 0 ↔
    (∀ c ∈ conditionsAll es, c.markers = 0) ∧ ∀ a ∈ (partsAll es).assignments, a.value.markers = 0
  | [] => by simp [markersAll, conditionsAll, partsAll, Parts.none]
  | e :: es => by
    rw [markersAll, Nat.add_eq_zero_iff, markers_eq_zero_iff e, markersAll_eq_zero_iff es,
      conditionsAll, partsAll, Parts.assignments_append, List.forall_mem_append,
      List.forall_mem_append]
    exact and_and_and_comm

end

end Entry

/-! ## Filling -/

theorem Operand.markers_fill {o : Operand} {vs : List Value} (h : o.markers ≤ vs.length) :
    (o.fill vs).markers = 0 := by
  cases o with
  | literal v => rfl
  | prepared =>
    cases vs with
    | nil => simp [markers] at h
    | cons v vs => rfl

namespace Condition

theorem markers_fill {c : Condition} {vs : List Value} (h : c.markers ≤ vs.length) :
    (c.fill vs).markers = 0 := by
  obtain ⟨kind, target, value, upper⟩ := c
  cases kind with
  | null => rfl
  | equals | like | lower | higher | oneOf => exact Operand.markers_fill h
  | between =>
    cases upper with
    | none => exact Operand.markers_fill h
    | some o =>
      -- the value takes the first markers, and the upper bound those behind them
      have hmarkers : value.markers + o.markers ≤ vs.length := h
      have hvalue : (value.fill vs).markers = 0 := Operand.markers_fill (by omega)
      have hupper : (o.fill (vs.drop value.markers)).markers = 0 :=
        Operand.markers_fill (by rw [List.length_drop]; omega)
      exact congrArg₂ (· + ·) hvalue hupper

/-- What of a condition is no operand. -/
def outline (c : Condition) : ConditionKind × Target × Bool := (c.kind, c.target, c.upperBound.isSome)

theorem outline_fill (c : Condition) (vs : List Value) : (c.fill vs).outline = c.outline := by
  obtain ⟨kind, target, value, upper⟩ := c
  cases kind with
  | between => cases upper <;> rfl
  | equals | like | lower | higher | null | oneOf => rfl

end Condition

/-- What of an assignment is no operand. -/
def Assignment.outline (a : Assignment) : FieldRef × Option Arithmetic := (a.field, a.operator)

/-- The parts without the assignments. -/
def Parts.clauses (p : Parts) : Parts := { p with assignments := [] }

theorem Parts.clauses_append (p q : Parts) : (p ++ q).clauses = p.clauses ++ q.clauses := by
  ext1 <;> simp [clauses]

namespace Entry

mutual

/-- **With a value for each marker no marker is left.** -/
theorem markers_fill : ∀ {e : Entry} {vs : List Value}, e.markers ≤ vs.length →
    (fill vs e).markers = 0
  | .condition c, vs, h => by
    rw [markers] at h
    rw [fill, markers, Condition.markers_fill h]
  | .operation kind es, vs, h => by
    rw [markers] at h
    rw [fill, markers, markersAll_fillAll h]
  | .set a, vs, h => by
    rw [markers] at h
    rw [fill, markers]
    exact Operand.markers_fill h
  | .join _, _, _ | .limit _, _, _ | .orderBy _, _, _ | .groupBy _, _, _ => rfl

/-- The same for several entries. -/
theorem markersAll_fillAll : ∀ {es : List Entry} {vs : List Value}, markersAll es ≤ vs.length →
    markersAll (fillAll vs es) = 0
  | [], _, _ => rfl
  | e :: es, vs, h => by
    rw [markersAll] at h
    have hhead : (fill vs e).markers = 0 := markers_fill (by omega)
    have htail : markersAll (fillAll (vs.drop e.markers) es) = 0 :=
      markersAll_fillAll (by rw [List.length_drop]; omega)
    rw [fillAll, markersAll, hhead, htail]

end

mutual

/-- Filled conditions differ in their operands only. -/
theorem map_outline_conditions_fill : ∀ (e : Entry) (vs : List Value),
    (fill vs e).conditions.map Condition.outline = e.conditions.map Condition.outline
  | .condition c, vs => by simp [fill, conditions, c.outline_fill]
  | .operation _ es, vs => by
    rw [fill, conditions, conditions, map_outline_conditionsAll_fillAll es]
  | .join _, _ | .limit _, _ | .orderBy _, _ | .groupBy _, _ | .set _, _ => rfl

/-- The same for several entries. -/
theorem map_outline_conditionsAll_fillAll : ∀ (es : List Entry) (vs : List Value),
    (conditionsAll (fillAll vs es)).map Condition.outline =
      (conditionsAll es).map Condition.outline
  | [], _ => rfl
  | e :: es, vs => by
    rw [fillAll, conditionsAll, conditionsAll, List.map_append, List.map_append,
      map_outline_conditions_fill e, map_outline_conditionsAll_fillAll es]

end

mutual

/-- Filled entries hold the same clauses. -/
theorem clauses_parts_fill : ∀ (e : Entry) (vs : List Value),
    (fill vs e).parts.clauses = e.parts.clauses
  | .operation _ es, vs => by
    rw [fill, parts, parts, clauses_partsAll_fillAll es]
  | .condition _, _ | .join _, _ | .limit _, _ | .orderBy _, _ | .groupBy _, _ | .set _, _ => rfl

/-- The same for several entries. -/
theorem clauses_partsAll_fillAll : ∀ (es : List Entry) (vs : List Value),
    (partsAll (fillAll vs es)).clauses = (partsAll es).clauses
  | [], _ => rfl
  | e :: es, vs => by
    rw [fillAll, partsAll, partsAll, Parts.clauses_append, Parts.clauses_append,
      clauses_parts_fill e, clauses_partsAll_fillAll es]

end

mutual

/-- Filled assignments differ in their operands only. -/
theorem map_outline_assignments_fill : ∀ (e : Entry) (vs : List Value),
    (fill vs e).parts.assignments.map Assignment.outline =
      e.parts.assignments.map Assignment.outline
  | .operation _ es, vs => by
    rw [fill, parts, parts, map_outline_assignments_fillAll es]
  | .condition _, _ | .join _, _ | .limit _, _ | .orderBy _, _ | .groupBy _, _ | .set _, _ => rfl

/-- The same for several entries. -/
theorem map_outline_assignments_fillAll : ∀ (es : List Entry) (vs : List Value),
    (partsAll (fillAll vs es)).assignments.map Assignment.outline =
      (partsAll es).assignments.map Assignment.outline
  | [], _ => rfl
  | e :: es, vs => by
    rw [fillAll, partsAll, partsAll, Parts.assignments_append, Parts.assignments_append,
      List.map_append, List.map_append, map_outline_assignments_fill e,
      map_outline_assignments_fillAll es]

end

variable {es : List Entry} {vs : List Value}

/-- An assignment is filled where it stands. -/
theorem flat_fill {e : Entry} : (fill vs e).Flat ↔ e.Flat := by
  have houtline := map_outline_assignments_fill e vs
  have hempty : (fill vs e).parts.assignments = [] ↔ e.parts.assignments = [] := by
    rw [← List.map_eq_nil_iff (f := Assignment.outline), houtline, List.map_eq_nil_iff]
  cases e with
  | set a => exact Iff.rfl
  | operation kind es => exact hempty
  | condition _ | join _ | limit _ | orderBy _ | groupBy _ => exact Iff.rfl

theorem flat_fillAll : (∀ e ∈ fillAll vs es, e.Flat) ↔ ∀ e ∈ es, e.Flat := by
  induction es generalizing vs with
  | nil => exact Iff.rfl
  | cons e es ih => rw [fillAll, List.forall_mem_cons, List.forall_mem_cons, flat_fill, ih]

theorem assignments_fillAll_eq_nil_iff :
    (partsAll (fillAll vs es)).assignments = [] ↔ (partsAll es).assignments = [] := by
  rw [← List.map_eq_nil_iff (f := Assignment.outline), map_outline_assignments_fillAll,
    List.map_eq_nil_iff]

/-- What is asked of conditions apart from their operands may be asked of the
filled ones. -/
theorem forall_conditions_fillAll (P : ConditionKind × Target × Bool → Prop) :
    (∀ c ∈ conditionsAll (fillAll vs es), P c.outline) ↔ ∀ c ∈ conditionsAll es, P c.outline := by
  rw [← List.forall_mem_map (f := Condition.outline), map_outline_conditionsAll_fillAll,
    List.forall_mem_map]

end Entry

end QueryLayer
