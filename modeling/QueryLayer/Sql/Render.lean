import QueryLayer.Sql.Clause
import QueryLayer.Sql.Query
import QueryLayer.Sql.Table
import QueryLayer.Rows

/-!
# Statements in SQL

`Sql.render` gives the query of a statement in a dialect, with the runtime
values filled in.
-/

namespace QueryLayer

namespace Sql

/-- A query without commands that follow. -/
def single (d : Dialect) (f : Fragment) : Query := ⟨d.quotes, f, []⟩

/-- A column of the result. -/
def projection (p : Projection) : Fragment :=
  match p.label with
  | some label => target p.target ++ [.text " AS ", .name label]
  | none => target p.target

/-- The columns of the result. -/
def projections (ps : List Projection) : Fragment :=
  if ps.isEmpty then [.text "*"] else Fragment.join "," (ps.map projection)

/-- A select. -/
def select (d : Dialect) (s : Find) (values : List Value) : Except QueryError Fragment := do
  let plan ← Plan.ofEntries (rules d "find") s.entries values
  return .text "SELECT " :: (projections s.projection ++ [.text " FROM "] ++ d.table s.collection ++
    [.text " "] ++ clauses d plan)

/-- An assignment and its value. -/
def assignment (a : Assignment) (v : Value) : Fragment :=
  let field := fieldName a.field
  match a.operator with
  | some op => field ++ [.text "="] ++ field ++ [.text op.symbol.toString, .slot .assignment v]
  | none => field ++ [.text "=", .slot .assignment v]

/-- An update. Its clauses follow the assignments directly. -/
def update (d : Dialect) (s : Search) (values : List Value) : Except QueryError Fragment := do
  let assign (a : Assignment) : Walk.Step Fragment := return assignment a (← Walk.resolve a.value)
  let (assignments, plan) ← Plan.ofChanges (rules d "update") assign s.entries values
  if assignments.isEmpty then throw (.noAssignments s.collection.name)
  return .text "UPDATE " :: (d.table s.collection ++ [.text " SET "] ++
    Fragment.join "," assignments ++ clauses d plan)

/-- A delete. -/
def delete (d : Dialect) (s : Search) (values : List Value) : Except QueryError Fragment := do
  let plan ← Plan.ofEntries (rules d "delete") s.entries values
  return .text "DELETE FROM " :: (d.table s.collection ++ [.text " "] ++ clauses d plan)

/-- A count. -/
def count (d : Dialect) (s : Search) (values : List Value) : Except QueryError Fragment := do
  let plan ← Plan.ofEntries (rules d "count") s.entries values
  return [.text "SELECT COUNT(*) AS ", .name countColumn, .text " FROM "] ++
    d.table s.collection ++ [.text " "] ++ clauses d plan

/-- Rows of bound values. -/
def rowGroups (rows : List (List Value)) : Fragment :=
  Fragment.join "," (rows.mapIdx fun r row =>
    .text "(" :: (Fragment.join "," (row.mapIdx fun c v => [.slot (.cell r c) v]) ++ [.text ")"]))

/-- The columns and rows after the name of a table. -/
def rowList (columns : List Fragment) (rows : List (List Value)) : Fragment :=
  [.text " ("] ++ Fragment.join "," columns ++ [.text ") VALUES "] ++ rowGroups rows ++ [.text ";"]

/-- An insert. -/
def insert (d : Dialect) (s : Insert) (values : List Value) : Except QueryError Fragment := do
  let rows ← s.rows values
  return .text "INSERT INTO " :: (d.table s.collection ++
    rowList (s.columns.map fun c => [.name c.field]) rows)

/-- The columns of a replace with their values. It has no filter and no
calculation. -/
def replacements (d : Dialect) (entries : List Entry) :
    StateT Supply (Except QueryError) (List (FieldRef × Value)) :=
  entries.mapM fun e =>
    match e with
    | .set a => do
      if a.operator.isSome then throw (.insertArithmetic a.field.display)
      return (a.field, ← a.value.resolve)
    | _ => throw (.unsupported d.name .filteredReplace)

/-- A replace. -/
def replace (d : Dialect) (s : Search) (values : List Value) : Except QueryError Fragment := do
  if d.replaceStyle = .unsupported then throw (.unsupported d.name .replace)
  let (columns, _) ← (replacements d s.entries).run (.ofList values)
  if columns.isEmpty then throw (.noAssignments s.collection.name)
  return .text "REPLACE INTO " :: (d.table s.collection ++
    rowList (columns.map fun c => fieldName c.1) [columns.map Prod.snd])

/-- The storage engine of a new table. Dialects without engines pass it over. -/
def engine (d : Dialect) (s : Create) : Fragment :=
  match s.engine with
  | some e => if d.engine then [.text (" ENGINE=" ++ e)] else []
  | none => []

/-- The search that fills a new table. -/
def included (d : Dialect) (s : Create) (values : List Value) : Except QueryError Fragment :=
  match s.included with
  | none => .ok []
  | some find => do
    if !d.createSelect then throw (.unsupported d.name .includedQuery)
    let f ← select d find values
    return .text " AS " :: f.trimEnd d.quotes

/-- A create, and the indexes that are commands of their own. -/
def create (d : Dialect) (s : Create) (values : List Value) : Except QueryError Query := do
  if s.definitions.isEmpty then throw .missingField
  let lines ← s.definitions.mapM (definition d s.collection)
  let select ← included d s values
  return ⟨d.quotes,
    .text "CREATE TABLE IF NOT EXISTS " :: (d.table s.collection ++ [.text "("] ++
      Fragment.join "," lines ++ [.text ")"] ++ engine d s ++ select ++ [.text ";"]),
    s.definitions.flatMap (afterDefinition d s.collection)⟩

/-- A drop. Only servers have databases to drop. -/
def drop (d : Dialect) : DropTarget → Except QueryError Fragment
  | .collection c => .ok (.text "DROP TABLE " :: d.table c)
  | .database name =>
    match d.environment with
    | .server => .ok [.text "DROP DATABASE ", .name name]
    | .embedded => .error (.unsupported d.name .dropDatabase)

/-- The removal of every row. -/
def clear (d : Dialect) (c : CollectionRef) : Fragment := .text "DELETE FROM " :: d.table c

/-- The query of a statement. -/
def render (d : Dialect) (s : Statement) (values : List Value) : Except QueryError Query :=
  match s with
  | .find s => (select d s values).map (single d)
  | .insert s => (insert d s values).map (single d)
  | .update s => (update d s values).map (single d)
  | .delete s => (delete d s values).map (single d)
  | .replace s => (replace d s values).map (single d)
  | .create s => create d s values
  | .drop target => (drop d target).map (single d)
  | .clear c => .ok (single d (clear d c))
  | .count s => (count d s values).map (single d)

end Sql

end QueryLayer
