import QueryLayer.Error
import QueryLayer.Statement
import QueryLayer.Text.Lexical

/-!
# Building inserts

Columns stand in the order in which they were first named. A name is found
again without regard to ASCII case and keeps its first spelling.
-/

namespace QueryLayer

namespace Insert

/-- The insert without columns. -/
def into (c : CollectionRef) : Insert := ⟨c, []⟩

/-- The columns with the column of a name changed, or added at the end and then
changed. -/
def modifyColumn (name : String) (f : InsertColumn → InsertColumn) :
    List InsertColumn → List InsertColumn
  | [] => [f ⟨name, []⟩]
  | c :: rest =>
    if Text.sameName c.field name then f c :: rest else c :: modifyColumn name f rest

/-- The column with one more value. -/
def pushValue (v : Operand) (c : InsertColumn) : InsertColumn := { c with values := c.values ++ [v] }

/-- Adds a value to a column. -/
def set (s : Insert) (field : String) (v : Operand) : Insert :=
  { s with columns := modifyColumn field (pushValue v) s.columns }

/-- Names columns without values. -/
def fields (s : Insert) (names : List String) : Insert :=
  { s with columns := names.foldl (fun cs n => modifyColumn n id cs) s.columns }

/-- Adds a row: one value for each column. -/
def values (s : Insert) (vs : List Operand) : Except QueryError Insert :=
  if vs.length ≠ s.columns.length then .error (.valuesMismatch s.columns.length vs.length)
  else .ok { s with columns := List.zipWith (fun c v => pushValue v c) s.columns vs }

end Insert

end QueryLayer
