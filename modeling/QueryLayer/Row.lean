import QueryLayer.Value
import QueryLayer.Decimal.Reading

/-!
# Rows and results

A row names its columns and keeps them sorted by the code points of their
names. A value is read as another type where that loses nothing of its meaning:
an integer as a truth value, and a text as the number it spells.
-/

namespace QueryLayer

/-- A row of a result. The columns are sorted, each name once. -/
structure Row where
  /-- The columns and their values. -/
  columns : List (String × Value)
deriving Inhabited

namespace Row

/-- The row without columns. -/
def empty : Row := ⟨[]⟩

/-- Sorted columns with the value of one set. -/
def insertSorted (name : String) (v : Value) : List (String × Value) → List (String × Value)
  | [] => [(name, v)]
  | (n, w) :: rest =>
    if name = n then (n, v) :: rest
    else if name < n then (name, v) :: (n, w) :: rest
    else (n, w) :: insertSorted name v rest

/-- The row with the value of a column set. -/
def set (r : Row) (name : String) (v : Value) : Row := ⟨insertSorted name v r.columns⟩

/-- The row of several columns; of two values for one column the later stays. -/
def ofList (columns : List (String × Value)) : Row :=
  columns.foldl (fun r c => r.set c.1 c.2) empty

/-- The value of a column. -/
def get? (r : Row) (name : String) : Option Value := r.columns.lookup name

/-- The row has the column. -/
def contains (r : Row) (name : String) : Bool := (r.get? name).isSome

/-- The names of the columns. -/
def names (r : Row) : List String := r.columns.map Prod.fst

/-- The value of a column as an integer. -/
def getInt? (r : Row) (name : String) : Option Int64 :=
  match r.get? name with
  | some (.int n) => some n
  | some (.bool b) => some (if b then 1 else 0)
  | some (.text s) => Decimal.readInt64 s
  | _ => none

/-- The value of a column as a float. -/
def getFloat? (r : Row) (name : String) : Option Float :=
  match r.get? name with
  | some (.float x) => some x
  | some (.int n) => some (Decimal.ofInt64 n)
  | some (.text s) => Decimal.readFloat s
  | _ => none

/-- The value of a column as a text. -/
def getText? (r : Row) (name : String) : Option String :=
  match r.get? name with
  | some (.text s) => some s
  | _ => none

/-- The value of a column as a truth value; an integer is true unless it is
zero. -/
def getBool? (r : Row) (name : String) : Option Bool :=
  match r.get? name with
  | some (.bool b) => some b
  | some (.int n) => some (n != 0)
  | _ => none

end Row

/-- The result of a command. -/
structure Outcome where
  /-- The rows, or the generated keys of an insert. -/
  rows : List Row
  /-- The number of rows a change affected. -/
  affected : UInt64
deriving Inhabited

namespace Outcome

/-- The result of a command that returns rows. -/
def ofRows (rows : List Row) : Outcome := ⟨rows, 0⟩

/-- The result of a command that changes rows. -/
def ofAffected (n : UInt64) : Outcome := ⟨[], n⟩

/-- The result that says nothing. -/
def empty : Outcome := ⟨[], 0⟩

/-- The first row. -/
def first? (o : Outcome) : Option Row := o.rows.head?

/-- The number of rows. -/
def length (o : Outcome) : Nat := o.rows.length

/-- There is no row. -/
def isEmpty (o : Outcome) : Bool := o.rows.isEmpty

end Outcome

end QueryLayer
