import QueryLayer.Supply
import QueryLayer.Statement

/-!
# Plans

A plan is a search with its values filled in and its entries sorted by what
they do: predicates, joins, group keys, sort keys and a window of rows. The
entries are walked once, in order and depth first, and each marker takes its
value when the walk reaches it. An operator contributes its predicates to the
operator around it; what else it holds joins the plan as if it stood outside.

Both back ends read the same plan. What only one of them refuses is said by its
`Rules`.
-/

namespace QueryLayer

/-- What a test compares with, all values known. -/
inductive Criterion where
  | equals (v : Value)
  | like (v : Value)
  | lower (v : Value)
  | higher (v : Value)
  | null
  | oneOf (vs : List Value)
  | between (lower upper : Value)
deriving Inhabited

/-- A test of a field. -/
structure Test where
  /-- The tested field and the aggregation around it. -/
  target : Target
  /-- What it is compared with. -/
  criterion : Criterion
deriving Inhabited

/-- What a row must satisfy. -/
inductive Predicate where
  | test (t : Test)
  | not (p : Predicate)
  /-- Every one of the predicates. -/
  | all (ps : List Predicate)
  /-- At least one of the predicates. -/
  | any (ps : List Predicate)
deriving Inhabited

/-- What a plan holds beside its predicates. -/
structure Clauses where
  /-- The joins. -/
  joins : List Join
  /-- The keys to group by. -/
  groups : List Target
  /-- The keys to sort by. -/
  sorts : List SortKey
  /-- The window of rows. -/
  window : Option Window
deriving Inhabited

namespace Clauses

/-- No clause at all. -/
def none : Clauses := ⟨[], [], [], .none⟩

end Clauses

/-- A search ready to be rendered. -/
structure Plan extends Clauses where
  /-- The predicates, all of which must hold. -/
  predicates : List Predicate
deriving Inhabited

/-- What one back end refuses, and how it names the statement. -/
structure Rules where
  /-- The name of the statement in messages. -/
  statement : String
  /-- Refuses a condition before its values are taken. -/
  condition : Condition → Except QueryError Unit
  /-- Refuses a test after its values were taken. -/
  test : Test → Except QueryError Unit
  /-- Refuses a join. -/
  join : Join → Except QueryError Unit
  /-- Refuses a sort key. -/
  sortKey : SortKey → Except QueryError Unit
  /-- Refuses a group key. -/
  groupKey : Target → Except QueryError Unit

/-- The walk over the entries: the values left and the clauses so far. -/
structure Walk where
  /-- The runtime values. -/
  supply : Supply
  /-- The clauses met so far. -/
  clauses : Clauses

namespace Walk

/-- The start of a walk. -/
def start (values : List Value) : Walk := ⟨.ofList values, .none⟩

/-- A step of the walk that yields a value or ends it with an error. -/
abbrev Step := StateT Walk (Except QueryError)

/-- The value of an operand. -/
def resolve (o : Operand) : Step Value := fun w =>
  (o.resolve w.supply).map fun (v, s) => (v, { w with supply := s })

/-- Adds to the clauses. -/
def add (f : Clauses → Clauses) : Step Unit := fun w =>
  .ok ((), { w with clauses := f w.clauses })

/-- Ends the walk where the check fails. -/
def check (c : Except QueryError Unit) : Step Unit := fun w => c.map fun _ => ((), w)

/-- Ends the walk. -/
def stop {α : Type} (e : QueryError) : Step α := fun _ => .error e

/-- Adds the window of rows, of which there may be one. -/
def addWindow (window : Window) : Step Unit := fun w =>
  match w.clauses.window with
  | some _ => .error .duplicateLimit
  | none => .ok ((), { w with clauses := { w.clauses with window := some window } })

end Walk

open Walk

namespace Condition

/-- The criterion of a condition, its values taken in order. A test for null
takes none, and an upper bound is taken for a range only. -/
def criterion (statement : String) (c : Condition) : Step Criterion :=
  match c.kind with
  | .equals => return .equals (← resolve c.value)
  | .like => return .like (← resolve c.value)
  | .lower => return .lower (← resolve c.value)
  | .higher => return .higher (← resolve c.value)
  | .null => return .null
  | .oneOf => do
    let v ← resolve c.value
    if v.toItems.isEmpty then stop (.emptyInList c.target.field.display)
    else return .oneOf v.toItems
  | .between =>
    match c.upperBound with
    | none => stop (.unexpectedEntry .unboundedRange statement)
    | some upper => return .between (← resolve c.value) (← resolve upper)

/-- The test of a condition. -/
def resolveTest (r : Rules) (c : Condition) : Step Test := do
  check (r.condition c)
  let t : Test := ⟨c.target, ← c.criterion r.statement⟩
  check (r.test t)
  return t

end Condition

namespace OperationKind

/-- What an operator makes of the predicates inside it. Without any, nothing. -/
def combine (kind : OperationKind) (ps : List Predicate) : List Predicate :=
  match kind with
  | .not => ps.map .not
  | .and => if ps.isEmpty then [] else [.all ps]
  | .or => if ps.isEmpty then [] else [.any ps]

end OperationKind

namespace Entry

mutual

/-- Walks one entry and yields its predicates. -/
def collect (r : Rules) : Entry → Step (List Predicate)
  | .condition c => return [.test (← c.resolveTest r)]
  | .operation kind es => return kind.combine (← collectAll r es)
  | .join j => do
    check (r.join j)
    add fun c => { c with joins := c.joins ++ [j] }
    return []
  | .limit w => do
    addWindow w
    return []
  | .orderBy k => do
    check (r.sortKey k)
    add fun c => { c with sorts := c.sorts ++ [k] }
    return []
  | .groupBy t => do
    check (r.groupKey t)
    add fun c => { c with groups := c.groups ++ [t] }
    return []
  | .set _ => stop (.unexpectedEntry .assignment r.statement)

/-- Walks several entries and yields their predicates. -/
def collectAll (r : Rules) : List Entry → Step (List Predicate)
  | [] => return []
  | e :: es => return (← collect r e) ++ (← collectAll r es)

end

/-- Walks the entries of a statement that assigns: an assignment at the top
level goes to `assign`, and every other entry yields its predicates. -/
def collectChanges {α : Type} (r : Rules) (assign : Assignment → Step α) :
    List Entry → Step (List α × List Predicate)
  | [] => return ([], [])
  | .set a :: es => do
    let x ← assign a
    let (xs, ps) ← collectChanges r assign es
    return (x :: xs, ps)
  | e :: es => do
    let ps ← collect r e
    let (xs, qs) ← collectChanges r assign es
    return (xs, ps ++ qs)

end Entry

namespace Plan

/-- The plan of a list of entries. -/
def ofEntries (r : Rules) (es : List Entry) (values : List Value) : Except QueryError Plan :=
  ((Entry.collectAll r es).run (Walk.start values)).map fun (ps, w) => ⟨w.clauses, ps⟩

/-- The plan of entries that assign, together with the assignments. -/
def ofChanges {α : Type} (r : Rules) (assign : Assignment → Walk.Step α) (es : List Entry)
    (values : List Value) : Except QueryError (List α × Plan) :=
  ((Entry.collectChanges r assign es).run (Walk.start values)).map fun ((xs, ps), w) =>
    (xs, ⟨w.clauses, ps⟩)

end Plan

end QueryLayer
