import QueryLayer.Decimal.Reading
import QueryLayer.Document.Command
import QueryLayer.Rows

/-!
# Statements on the document store

`Document.render` gives the command of a statement, with the runtime values
filled in. The store has no aggregated conditions or keys, only inner and left
joins, and no search around an update, a replace or a delete beyond its filter.
-/

namespace QueryLayer

namespace Document

/-- The store lacks a feature. -/
def unsupported (f : Feature) : QueryError := .unsupported backend f

/-- Fails where the condition holds. -/
def refuseIf (condition : Bool) (f : Feature) : Except QueryError Unit :=
  if condition then .error (unsupported f) else .ok ()

/-- The test is for a pattern that is no text. -/
def isTextlessPattern : Criterion → Bool
  | .like (.text _) => false
  | .like _ => true
  | _ => false

/-- What the store refuses in a search. -/
def rules : Rules where
  statement := "search"
  condition := fun c => refuseIf c.target.aggregation.isSome .aggregatedCondition
  test := fun t => refuseIf (isTextlessPattern t.criterion) .patternThatIsNoText
  join := fun j => refuseIf (j.joinType == .right || j.joinType == .full) (.joinType j.joinType)
  sortKey := fun k => refuseIf k.target.aggregation.isSome .aggregatedSortKey
  groupKey := fun t => refuseIf t.aggregation.isSome .aggregatedGroupKey

/-- The pipeline of a find. -/
def find (s : Find) (values : List Value) : Except QueryError Command := do
  let plan ← Plan.ofEntries rules s.entries values
  return .aggregate s.collection.name (Stage.pipeline s.collection plan s.projection)

/-- The pipeline of a count. -/
def count (s : Search) (values : List Value) : Except QueryError Command := do
  let plan ← Plan.ofEntries rules s.entries values
  return .aggregate s.collection.name (Stage.pipeline s.collection plan [] ++ [.count countColumn])

/-- The documents of an insert, one for each row. -/
def insert (s : Insert) (values : List Value) : Except QueryError Command := do
  let rows ← s.rows values
  let fields := s.columns.map (·.field)
  return .insert s.collection.name (rows.map fun row => Keyed.ofPairs (fields.zip row))

/-- The first clause of a plan that a filter alone cannot carry. -/
def extraClause (c : Clauses) : Option String :=
  if !c.joins.isEmpty then some "join"
  else if !c.groups.isEmpty then some "group by"
  else if !c.sorts.isEmpty then some "order by"
  else if c.window.isSome then some "limit"
  else none

/-- The filter of a plan that has nothing beside it. -/
def filterOnly (base : CollectionRef) (p : Plan) (statement : String) : Except QueryError Filter :=
  match extraClause p.toClauses with
  | some clause => .error (unsupported (.clauseIn clause statement))
  | none => .ok (.conjunction (Filter.ofPredicates base p.predicates))

/-- The number with the opposite sign. -/
def negate : Value → Except QueryError Value
  | .int n => if n = Int64.minValue then .error (unsupported .subtractedMinimum) else .ok (.int (-n))
  | .float x => .ok (.float (-x))
  | _ => .error (unsupported .subtractedNonNumber)

/-- One divided by the number. -/
def reciprocal (v : Value) : Except QueryError Value := do
  let divisor ← match v with
    | .int n => .ok (Decimal.ofInt64 n)
    | .float x => .ok x
    | _ => .error (unsupported .dividedByNonNumber)
  if divisor == 0.0 then throw (unsupported .divisionByZero)
  return .float (1.0 / divisor)

/-- The operator of an assignment and its operand: a difference is a sum with
the opposite number, and a quotient a product with the reciprocal. -/
def change (operator : Option Arithmetic) (v : Value) :
    Except QueryError (UpdateOperator × Value) :=
  match operator with
  | none => .ok (.set, v)
  | some .add => .ok (.inc, v)
  | some .subtract => (negate v).map (.inc, ·)
  | some .multiply => .ok (.mul, v)
  | some .divide => (reciprocal v).map (.mul, ·)

/-- A change of a field. -/
structure FieldChange where
  /-- The operator. -/
  operator : UpdateOperator
  /-- The path of the field. -/
  path : String
  /-- The operand. -/
  value : Value

/-- The change an assignment asks for. -/
def assignChange (base : CollectionRef) (a : Assignment) : Walk.Step FieldChange := do
  let v ← Walk.resolve a.value
  let (op, v) ← (liftM (change a.operator v) : Walk.Step _)
  return ⟨op, path base a.field, v⟩

/-- The command of an update. -/
def update (s : Search) (values : List Value) : Except QueryError Command := do
  let (changes, plan) ← Plan.ofChanges rules (assignChange s.collection) s.entries values
  if changes.isEmpty then throw (.noAssignments s.collection.name)
  let filter ← filterOnly s.collection plan "update"
  return .update s.collection.name filter
    (changes.foldl (fun acc c => Changes.put acc c.operator c.path c.value) [])

/-- The command of a delete. -/
def delete (s : Search) (values : List Value) : Except QueryError Command := do
  let plan ← Plan.ofEntries rules s.entries values
  let filter ← filterOnly s.collection plan "delete"
  return .delete s.collection.name filter

/-- The field of a replacement. Calculations have no place in it. -/
def assignContent (base : CollectionRef) (a : Assignment) : Walk.Step (String × Value) := do
  if a.operator.isSome then Walk.stop (.insertArithmetic a.field.display)
  else return (path base a.field, ← Walk.resolve a.value)

/-- The command of a replace. -/
def replace (s : Search) (values : List Value) : Except QueryError Command := do
  let (content, plan) ← Plan.ofChanges rules (assignContent s.collection) s.entries values
  if content.isEmpty then throw (.noAssignments s.collection.name)
  let filter ← filterOnly s.collection plan "replace"
  return .replace s.collection.name filter (Keyed.ofPairs content)

/-- The index a line of a definition asks for. -/
def index (collection : CollectionRef) : Definition → Except QueryError (Option Index)
  | .foreignKey _ _ => .error (unsupported .foreignKey)
  | .column c =>
    let unique := c.has .unique || c.has .uniqueIndex
    if c.field.isEmpty then .error .missingField
    else if unique || c.has .index then
      let ending := if unique then "unique" else "index"
      .ok (some ⟨c.field, collection.name ++ "_" ++ c.field ++ "_" ++ ending, unique⟩)
    else .ok none

/-- The command of a create. Types and engines are of no use to the store. -/
def create (s : Create) : Except QueryError Command := do
  if s.included.isSome then throw (unsupported .includedQuery)
  let indexes ← s.definitions.mapM (index s.collection)
  return .create s.collection.name (indexes.filterMap id)

/-- The command of a drop. -/
def drop : DropTarget → Command
  | .collection c => .drop c.name
  | .database name => .dropDatabase name

/-- The command of a statement. -/
def render (s : Statement) (values : List Value) : Except QueryError Command :=
  match s with
  | .find s => find s values
  | .insert s => insert s values
  | .update s => update s values
  | .delete s => delete s values
  | .replace s => replace s values
  | .create s => create s
  | .drop target => .ok (drop target)
  | .clear c => .ok (.delete c.name .everything)
  | .count s => count s values

end Document

end QueryLayer
