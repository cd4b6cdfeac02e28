import QueryLayer.Proofs.Walk.Run

/-!
# Assignments on a walk

A back end decides what an assignment becomes. Where that depends on the
assignment and its value alone, the walk may as well collect the assignments
with their values, and the back end reads them off afterwards
(`ofChanges_resolved`).
-/

namespace QueryLayer

variable {α β : Type}

namespace Entry

/-- What is made of an assignment may be made of it after the walk. -/
theorem collectChanges_map (r : Rules) (g : α → β) (assign : Assignment → Walk.Step α)
    (es : List Entry) :
    collectChanges r (fun a => g <$> assign a) es =
      (fun x => (x.1.map g, x.2)) <$> collectChanges r assign es := by
  induction es with
  | nil => simp [collectChanges]
  | cons e es ih =>
    cases e with
    | set a => simp [collectChanges, ih]
    | condition _ | operation _ _ | join _ | limit _ | orderBy _ | groupBy _ =>
      simp [collectChanges, ih]

end Entry

namespace Assignment

/-- An assignment and the value it assigns. -/
def resolved (a : Assignment) : Walk.Step (Assignment × Value) := do
  return (a, ← Walk.resolve a.value)

end Assignment

namespace Plan

/-- **What a back end makes of assignments and their values**, it may make of
them after the walk. -/
theorem ofChanges_resolved (r : Rules) (g : Assignment → Value → β) (es : List Entry)
    (values : List Value) :
    ofChanges r (fun a => return g a (← Walk.resolve a.value)) es values =
      (ofChanges r Assignment.resolved es values).map fun x =>
        (x.1.map fun a => g a.1 a.2, x.2) := by
  have hassign : (fun a => return g a (← Walk.resolve a.value)) =
      fun a : Assignment => (fun x : Assignment × Value => g x.1 x.2) <$> a.resolved := by
    funext a
    simp [Assignment.resolved]
  rw [hassign, ofChanges, Entry.collectChanges_map, ofChanges, StateT.run_map]
  cases (Entry.collectChanges r Assignment.resolved es).run (Walk.start values) <;> rfl

end Plan

end QueryLayer
