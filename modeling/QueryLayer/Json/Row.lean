import QueryLayer.Json.Entry
import QueryLayer.Row

/-!
# Results in JSON

The columns of a row are an object in the order of their names. In text the
order is free, and of two members for one column the later stays.
-/

namespace QueryLayer

open Json

namespace Row

/-- The JSON of a row. -/
def toJson (r : Row) : Json :=
  .object [("columns", .object (r.columns.map fun c => (c.1, c.2.toJson)))]

/-- The columns of an object. -/
def columnsOf : Json → Option (List (String × Value))
  | .object members => members.mapM fun m => (Value.ofJson m.2).map (m.1, ·)
  | _ => none

/-- The row of a JSON value. -/
def ofJson (j : Json) : Option Row := do
  match ← recordFields ["columns"] j with
  | [columns] => return Row.ofList (← required columnsOf columns)
  | _ => none

end Row

namespace Outcome

/-- The JSON of a result. -/
def toJson (o : Outcome) : Json :=
  .object [("rows", .array (o.rows.map Row.toJson)), ("affected", .int o.affected.toNat)]

/-- The result of a JSON value. -/
def ofJson (j : Json) : Option Outcome := do
  match ← recordFields ["rows", "affected"] j with
  | [rows, affected] =>
    return ⟨← required (items Row.ofJson) rows,
      (← required (asBounded Entry.maxRows) affected).toUInt64⟩
  | _ => none

end Outcome

end QueryLayer
