import QueryLayer.Dialect.Basic
import QueryLayer.Plan

/-!
# The clauses of a search in SQL

The clauses of a plan always stand in one order: joins, filter, group keys,
sort keys and window. A negation is pushed inwards: it lends `NOT` to each test
and bracket it reaches, and two of them cancel. What it holds stands among the
operands of the operator around it.
-/

namespace QueryLayer

namespace Sql

/-- A field, or an aggregation of it. -/
def target (t : Target) : Fragment :=
  match t.aggregation with
  | some a => .text (a.keyword ++ "(") :: (fieldName t.field ++ [.text ")"])
  | none => fieldName t.field

/-- The word for a negation, where there is one. -/
def negation (negated : Bool) : Fragment := if negated then [.text "NOT "] else []

/-- A field compared with one value. -/
def comparison (negated : Bool) (t : Target) (symbol : String) (v : Value) :
    Fragment :=
  negation negated ++ target t ++ [.text symbol, .slot .operand v]

/-- Placeholders for the items of a list. -/
def itemSlots (vs : List Value) : Fragment :=
  Fragment.join "," (vs.mapIdx fun i v => [.slot (.item i) v])

/-- A test, negated or not. -/
def test (negated : Bool) (t : Test) : Fragment :=
  match t.criterion with
  | .equals v => comparison negated t.target "=" v
  | .like v => comparison negated t.target " LIKE " v
  | .lower v => comparison negated t.target "<" v
  | .higher v => comparison negated t.target ">" v
  | .null => target t.target ++ [.text " IS "] ++ negation negated ++ [.text "NULL"]
  | .oneOf vs =>
    negation negated ++ target t.target ++ [.text " IN ("] ++ itemSlots vs ++ [.text ")"]
  | .between lower upper =>
    negation negated ++ target t.target ++
      [.text " BETWEEN ", .slot .lowerBound lower, .text " AND ", .slot .upperBound upper]

/-- Operands in brackets. -/
def bracket (negated : Bool) (connector : OperationKind) (operands : List Fragment) : Fragment :=
  negation negated ++ [.text "("] ++ Fragment.join (" " ++ connector.keyword ++ " ") operands ++
    [.text ")"]

mutual

/-- What a predicate adds to the operands of the operator around it. -/
def operands (negated : Bool) : Predicate → List Fragment
  | .test t => [test negated t]
  | .not p => operands (!negated) p
  | .all ps => [bracket negated .and (operandsAll false ps)]
  | .any ps => [bracket negated .or (operandsAll false ps)]

/-- What several predicates add. -/
def operandsAll (negated : Bool) : List Predicate → List Fragment
  | [] => []
  | p :: ps => operands negated p ++ operandsAll negated ps

end

/-- The filter; nothing without predicates. -/
def filter (ps : List Predicate) : Fragment :=
  match operandsAll false ps with
  | [] => []
  | os => .text " WHERE " :: Fragment.join (" " ++ OperationKind.and.keyword ++ " ") os

/-- A column of a joined table. -/
def column (d : Dialect) (c : Option CollectionRef) (name : String) : Fragment :=
  match c with
  | some c => d.table c ++ [.text ".", .name name]
  | none => [.name name]

/-- The equalities of a join, the first after `ON` and the others after
`AND`. -/
def joinPairs (d : Dialect) (pairs : List JoinPair) : Fragment :=
  (pairs.mapIdx fun i p =>
    .text (if i = 0 then " ON " else " AND ") ::
      (column d (some p.collection1) p.column1 ++ [.text "="] ++
        column d p.collection2 p.column2)).flatten

/-- One join. -/
def join (d : Dialect) (j : Join) : Fragment :=
  .text (j.joinType.keyword ++ " JOIN ") :: (d.table j.collection ++ joinPairs d j.pairs)

/-- The joins. -/
def joins (d : Dialect) (js : List Join) : Fragment := Fragment.join " " (js.map (join d))

/-- The group keys. -/
def groupBy (ts : List Target) : Fragment :=
  match ts with
  | [] => []
  | ts => .text " GROUP BY " :: Fragment.join "," (ts.map target)

/-- One sort key. -/
def sortKey (k : SortKey) : Fragment :=
  target k.target ++ [.text (" " ++ k.order.keyword)]

/-- The sort keys. A window that is written after the sort keys needs some, and
a constant key stands in where there are none. -/
def orderBy (d : Dialect) (c : Clauses) : Fragment :=
  match c.sorts with
  | [] =>
    if c.window.isSome && d.limitStyle == .offsetFetch then [.text " ORDER BY (SELECT NULL)"]
    else []
  | ks => .text " ORDER BY " :: Fragment.join "," (ks.map sortKey)

/-- A number of rows as a value, at most the largest integer. -/
def rowCount (n : UInt64) : Value :=
  .int (Int64.ofInt (min n.toNat Int64.maxValue.toInt))

/-- The window of rows. -/
def window (d : Dialect) (w : Option Window) : Fragment :=
  match w with
  | none => []
  | some w =>
    let limit : Piece := .slot .limit (rowCount w.limit)
    let offset : Piece := .slot .offset (rowCount w.offset)
    match d.limitStyle with
    | .limitOffset => [.text " LIMIT ", limit, .text " OFFSET ", offset]
    | .offsetFetch =>
      [.text " OFFSET ", offset, .text " ROWS FETCH NEXT ", limit, .text " ROWS ONLY"]

/-- The clauses of a plan, in their order. -/
def clauses (d : Dialect) (p : Plan) : Fragment :=
  joins d p.joins ++ filter p.predicates ++ groupBy p.groups ++ orderBy d p.toClauses ++
    window d p.window

/-- What a dialect refuses in a search: full joins, where it has none. -/
def rules (d : Dialect) (statement : String) : Rules where
  statement := statement
  condition := fun _ => .ok ()
  test := fun _ => .ok ()
  join := fun j =>
    if j.joinType = .full ∧ ¬ d.fullJoin then .error (.unsupported d.name (.joinType .full))
    else .ok ()
  sortKey := fun _ => .ok ()
  groupKey := fun _ => .ok ()

end Sql

end QueryLayer
