import QueryLayer.Supply
import QueryLayer.Statement

/-!
# The rows of an insert

The columns of an insert hold values for the first rows. Every marker, and
every cell past the values of its column, takes the next runtime value, row by
row and in each row from the first column to the last. The number of values
must make whole rows.
-/

namespace QueryLayer

namespace Insert

/-- The values the columns hold, column by column. -/
def operands (s : Insert) : List Operand := s.columns.flatMap (·.values)

/-- The number of values the columns hold, markers included. -/
def stored (s : Insert) : Nat := s.operands.length

/-- The number of markers among them. -/
def markers (s : Insert) : Nat := s.operands.countP Operand.isPrepared

/-- The number of cells that a number of runtime values makes. -/
def cellCount (s : Insert) (supplied : Nat) : Nat := s.stored + (supplied - s.markers)

/-- The value of a column in a row. -/
def cell (c : InsertColumn) (row : Nat) : StateT Supply (Except QueryError) Value := fun s =>
  (c.values[row]?.getD .prepared).resolve s

/-- The values of the first rows. -/
def fill (s : Insert) (rows : Nat) : StateT Supply (Except QueryError) (List (List Value)) :=
  (List.range rows).mapM fun row => s.columns.mapM fun c => cell c row

/-- The rows of an insert. -/
def rows (s : Insert) (values : List Value) : Except QueryError (List (List Value)) :=
  let width := s.columns.length
  let total := s.cellCount values.length
  if width = 0 ∨ total = 0 then .error (.emptyInsert s.collection.name)
  else if total % width ≠ 0 then .error (.unbalancedInsert total width)
  else
    let height := total / width
    match s.columns.find? (fun c => height < c.values.length) with
    | some c => .error (.insertOverflow c.field c.values.length height)
    | none => ((s.fill height).run (.ofList values)).map Prod.fst

end Insert

end QueryLayer
