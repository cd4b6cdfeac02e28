import QueryLayer.Language
import QueryLayer.Proofs.Walk.Misuse

/-!
# Well built statements are rendered without misuse

A back end adds errors of its own to those of the walk: a join it has not, an
empty list, a calculation that has no place, a marker without a value. None of
them is misuse of a builder, so a well built statement is never refused for
misuse, in any language (`Language.innocent_compile`).
-/

namespace QueryLayer

namespace Statement

/-- The statement is one that is built over entries, and its entries are well
built. Only an update and a replace assign. -/
def WellBuilt : Statement → Prop
  | .find s => Entry.WellBuilt s.entries ∧ (Entry.partsAll s.entries).assignments = []
  | .count s | .delete s =>
    Entry.WellBuilt s.entries ∧ (Entry.partsAll s.entries).assignments = []
  | .update s | .replace s => Entry.WellBuilt s.entries
  | .insert _ | .create _ | .drop _ | .clear _ => False

end Statement

/-! ## SQL -/

namespace Sql

variable {d : Dialect} {values : List Value}

theorem innocent_rules (d : Dialect) (statement : String) : (rules d statement).Innocent where
  condition _ := .ok _
  test _ := .ok _
  join j := by
    dsimp only [rules]
    split
    · exact .error id
    · exact .ok _
  sortKey _ := .ok _
  groupKey _ := .ok _

/-- A column of a replace is refused for its calculation or for what it is. -/
theorem innocent_replacements (d : Dialect) (es : List Entry) (s : Supply) :
    Innocent (replacements d es s) := by
  induction es generalizing s with
  | nil => exact .ok _
  | cons e es ih =>
    rw [replacements, List.mapM_cons]
    refine .bind ?_ fun x _ => .bind (ih x.2) fun y _ => .ok _
    cases e with
    | set a =>
      dsimp only
      split
      · exact .error id
      · exact .bind (a.value.innocent_resolve _) fun _ _ => .ok _
    | condition _ | operation _ _ | join _ | limit _ | orderBy _ | groupBy _ => exact .error id

theorem innocent_render {s : Statement} (hs : s.WellBuilt) : Innocent (render d s values) := by
  have hrules := innocent_rules d
  cases s with
  | find s => exact .map (.bind (Plan.innocent_ofEntries (hrules _) hs.1 hs.2) fun _ _ => .ok _)
  | count s => exact .map (.bind (Plan.innocent_ofEntries (hrules _) hs.1 hs.2) fun _ _ => .ok _)
  | delete s => exact .map (.bind (Plan.innocent_ofEntries (hrules _) hs.1 hs.2) fun _ _ => .ok _)
  | update s =>
    refine .map (.bind (Plan.innocent_ofChanges (hrules _) (fun a => ?_) hs) fun x _ => ?_)
    · exact (Walk.Spares.resolve _).bind_pure
    · exact .guard id (.ok _)
  | replace s =>
    refine .map (.guard id (.bind (innocent_replacements d _ _) fun x _ => ?_))
    exact .guard id (.ok _)
  | insert _ | create _ | drop _ | clear _ => exact hs.elim

end Sql

/-! ## The document store -/

namespace Document

variable {values : List Value}

theorem innocent_refuseIf (c : Bool) (f : Feature) : Innocent (refuseIf c f) := by
  rw [refuseIf]
  split
  · exact .error id
  · exact .ok _

theorem innocent_rules : rules.Innocent where
  condition _ := innocent_refuseIf _ _
  test _ := innocent_refuseIf _ _
  join _ := innocent_refuseIf _ _
  sortKey _ := innocent_refuseIf _ _
  groupKey _ := innocent_refuseIf _ _

theorem innocent_filterOnly (base : CollectionRef) (p : Plan) (statement : String) :
    Innocent (filterOnly base p statement) := by
  rw [filterOnly]
  split
  · exact .error id
  · exact .ok _

theorem innocent_negate (v : Value) : Innocent (negate v) := by
  cases v with
  | int n =>
    rw [negate]
    split
    · exact .error id
    · exact .ok _
  | float x => exact .ok _
  | null | bool _ | text _ | list _ | blob _ => exact .error id

theorem innocent_reciprocal (v : Value) : Innocent (reciprocal v) := by
  have hdivide (x : Float) : Innocent (do
      if x == 0.0 then throw (unsupported .divisionByZero)
      return Value.float (1.0 / x)) := .guard id (.ok _)
  cases v with
  | int n => exact hdivide (Decimal.ofInt64 n)
  | float x => exact hdivide x
  | null | bool _ | text _ | list _ | blob _ => exact .error id

theorem innocent_change (op : Option Arithmetic) (v : Value) : Innocent (change op v) := by
  match op with
  | none => exact .ok _
  | some .add => exact .ok _
  | some .multiply => exact .ok _
  | some .subtract => exact .map (innocent_negate v)
  | some .divide => exact .map (innocent_reciprocal v)

theorem spares_assignChange (base : CollectionRef) (a : Assignment) :
    Walk.Spares [] (assignChange base a) :=
  (Walk.Spares.resolve _).bind_nil fun _ => (Walk.Spares.lift (innocent_change _ _)).bind_pure

theorem spares_assignContent (base : CollectionRef) (a : Assignment) :
    Walk.Spares [] (assignContent base a) := by
  rw [assignContent]
  split
  · exact .stop id
  · exact (Walk.Spares.resolve _).bind_pure

theorem innocent_render {s : Statement} (hs : s.WellBuilt) : Innocent (render s values) := by
  cases s with
  | find s => exact .bind (Plan.innocent_ofEntries innocent_rules hs.1 hs.2) fun _ _ => .ok _
  | count s => exact .bind (Plan.innocent_ofEntries innocent_rules hs.1 hs.2) fun _ _ => .ok _
  | delete s =>
    exact .bind (Plan.innocent_ofEntries innocent_rules hs.1 hs.2) fun p _ =>
      .bind (innocent_filterOnly _ _ _) fun _ _ => .ok _
  | update s =>
    refine .bind (Plan.innocent_ofChanges innocent_rules (spares_assignChange _) hs) fun x _ => ?_
    exact .guard id (.bind (innocent_filterOnly _ _ _) fun _ _ => .ok _)
  | replace s =>
    refine .bind (Plan.innocent_ofChanges innocent_rules (spares_assignContent _) hs) fun x _ => ?_
    exact .guard id (.bind (innocent_filterOnly _ _ _) fun _ _ => .ok _)
  | insert _ | create _ | drop _ | clear _ => exact hs.elim

end Document

namespace Language

/-- **A well built statement is not refused for misuse**, in any language and
with any values. -/
theorem innocent_compile (l : Language) {s : Statement} (hs : s.WellBuilt) (values : List Value) :
    Innocent (l.compile s values) := by
  cases l with
  | sql d => exact .map (Sql.innocent_render hs)
  | document => exact .map (Document.innocent_render hs)

end Language

end QueryLayer
