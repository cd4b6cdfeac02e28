import QueryLayer.Json.Value
import QueryLayer.Entry

/-!
# Entries in JSON

Fields stand in a fixed order and a field without a value is left out. An entry
carries its kind under `type`. Reading accepts every spelling that the shapes
of records and variants allow, and gives back what was written.
-/

namespace QueryLayer

open Json

namespace Aggregation

/-- The aggregation of a JSON value. -/
def ofJson (inner : Bool) : Json → Option Aggregation := plainVariant all name inner

end Aggregation

/-- The JSON of an aggregation. -/
def Aggregation.toJson (a : Aggregation) : Json := .string a.name

namespace FieldRef

/-- The JSON of a reference. -/
def toJson (f : FieldRef) : Json :=
  record [("database", f.database.map .string), ("collection", f.collection.map .string),
    ("field", some (.string f.field))]

/-- The reference of a JSON value. -/
def ofJson (j : Json) : Option FieldRef := do
  match ← recordFields ["database", "collection", "field"] j with
  | [database, collection, field] =>
    return ⟨← optional asText database, ← optional asText collection, ← required asText field⟩
  | _ => none

end FieldRef

namespace CollectionRef

/-- The JSON of a collection. -/
def toJson (c : CollectionRef) : Json :=
  record [("database", some (.string c.database)), ("name", some (.string c.name))]

/-- The collection of a JSON value. -/
def ofJson (j : Json) : Option CollectionRef := do
  match ← recordFields ["database", "name"] j with
  | [database, name] => return ⟨← required asText database, ← required asText name⟩
  | _ => none

end CollectionRef

/-- The window of rows of two numbers. -/
def Window.ofNats (limit offset : Nat) : Window := ⟨limit.toUInt64, offset.toUInt64⟩

/-- The JSON of a pair of a join. -/
def JoinPair.toJson (p : JoinPair) : Json :=
  record [("collection1", some p.collection1.toJson), ("column1", some (.string p.column1)),
    ("collection2", p.collection2.map CollectionRef.toJson),
    ("column2", some (.string p.column2))]

/-- The pair of a join of a JSON value. -/
def JoinPair.ofJson (j : Json) : Option JoinPair := do
  match ← recordFields ["collection1", "column1", "collection2", "column2"] j with
  | [collection1, column1, collection2, column2] =>
    return ⟨← required CollectionRef.ofJson collection1, ← required asText column1,
      ← optional CollectionRef.ofJson collection2, ← required asText column2⟩
  | _ => none

namespace Projection

/-- The JSON of a column of the result. -/
def toJson (p : Projection) : Json :=
  record [("field", some p.target.field.toJson),
    ("aggregation", p.target.aggregation.map Aggregation.toJson),
    ("alias", p.label.map .string)]

/-- The column of the result of a JSON value. -/
def ofJson (inner : Bool) (j : Json) : Option Projection := do
  match ← recordFields ["field", "aggregation", "alias"] j with
  | [field, aggregation, label] =>
    return ⟨⟨← required FieldRef.ofJson field, ← optional (Aggregation.ofJson inner) aggregation⟩,
      ← optional asText label⟩
  | _ => none

end Projection

namespace InsertColumn

/-- The JSON of an inserted column. -/
def toJson (c : InsertColumn) : Json :=
  record [("field", some (.string c.field)),
    ("values", some (.array (c.values.map Operand.toJson)))]

/-- The inserted column of a JSON value. -/
def ofJson (inner : Bool) (j : Json) : Option InsertColumn := do
  match ← recordFields ["field", "values"] j with
  | [field, values] =>
    return ⟨← required asText field, ← listed (Operand.ofJson inner) values⟩
  | _ => none

end InsertColumn

namespace Entry

/-- The JSON of a number that counts rows. -/
def rowsJson (n : UInt64) : Json := .int n.toNat

mutual

/-- The JSON of an entry. -/
def toJson : Entry → Json
  | .condition c =>
    record [("type", some (.string "condition")), ("kind", some (.string c.kind.name)),
      ("field", some c.target.field.toJson), ("value", some c.value.toJson),
      ("aggregation", c.target.aggregation.map Aggregation.toJson),
      ("upper_bound", c.upperBound.map Operand.toJson)]
  | .operation kind es =>
    record [("type", some (.string "operation")), ("kind", some (.string kind.name)),
      ("entries", some (.array (toJsonAll es)))]
  | .join j =>
    record [("type", some (.string "join")), ("collection", some j.collection.toJson),
      ("join_type", some (.string j.joinType.name)),
      ("on", some (.array (j.pairs.map JoinPair.toJson)))]
  | .limit w =>
    record [("type", some (.string "limit")), ("limit", some (rowsJson w.limit)),
      ("offset", some (rowsJson w.offset))]
  | .orderBy k =>
    record [("type", some (.string "order_by")), ("field", some k.target.field.toJson),
      ("order", some (.string k.order.name)),
      ("aggregation", k.target.aggregation.map Aggregation.toJson)]
  | .groupBy t =>
    record [("type", some (.string "group_by")), ("field", some t.field.toJson),
      ("aggregation", t.aggregation.map Aggregation.toJson)]
  | .set a =>
    record [("type", some (.string "set")), ("field", some a.field.toJson),
      ("value", some a.value.toJson), ("operator", a.operator.map (.string ·.name))]

/-- The JSON of several entries. -/
def toJsonAll : List Entry → List Json
  | [] => []
  | e :: es => toJson e :: toJsonAll es

end

/-- The names of the kinds of entries, in the order that gives their places. -/
def kinds : List String :=
  ["condition", "operation", "join", "limit", "order_by", "group_by", "set"]

/-- The largest number of rows. -/
def maxRows : Nat := UInt64.size - 1

/-- The condition of a record. -/
def conditionOf (j : Json) : Option Entry := do
  match ← recordFields ["kind", "field", "value", "aggregation", "upper_bound"] j with
  | [kind, field, value, aggregation, upperBound] =>
    return .condition {
      kind := ← required (plainVariant ConditionKind.all ConditionKind.name true) kind
      target := ⟨← required FieldRef.ofJson field, ← optional (Aggregation.ofJson true) aggregation⟩
      value := ← required (Operand.ofJson true) value
      upperBound := ← optional (Operand.ofJson true) upperBound }
  | _ => none

/-- The join of a record. -/
def joinOf (j : Json) : Option Entry := do
  match ← recordFields ["collection", "join_type", "on"] j with
  | [collection, joinType, pairs] =>
    return .join ⟨← required CollectionRef.ofJson collection,
      ← required (plainVariant JoinType.all JoinType.name true) joinType,
      ← required (items JoinPair.ofJson) pairs⟩
  | _ => none

/-- The limit of a record. -/
def limitOf (j : Json) : Option Entry := do
  match ← recordFields ["limit", "offset"] j with
  | [most, skipped] =>
    return .limit (Window.ofNats (← required (asBounded maxRows) most)
      (← required (asBounded maxRows) skipped))
  | _ => none

/-- The sort key of a record. -/
def orderByOf (j : Json) : Option Entry := do
  match ← recordFields ["field", "order", "aggregation"] j with
  | [field, order, aggregation] =>
    return .orderBy ⟨⟨← required FieldRef.ofJson field,
      ← optional (Aggregation.ofJson true) aggregation⟩,
      ← required (plainVariant SortOrder.all SortOrder.name true) order⟩
  | _ => none

/-- The group key of a record. -/
def groupByOf (j : Json) : Option Entry := do
  match ← recordFields ["field", "aggregation"] j with
  | [field, aggregation] =>
    return .groupBy ⟨← required FieldRef.ofJson field,
      ← optional (Aggregation.ofJson true) aggregation⟩
  | _ => none

/-- The assignment of a record. -/
def setOf (j : Json) : Option Entry := do
  match ← recordFields ["field", "value", "operator"] j with
  | [field, value, operator] =>
    return .set ⟨← required FieldRef.ofJson field, ← required (Operand.ofJson true) value,
      ← optional (plainVariant Arithmetic.all Arithmetic.name true) operator⟩
  | _ => none

/-- The operation of a record, its entries read by `read`. -/
def operationOf (read : Json → Option Entry) (j : Json) : Option Entry := do
  match ← recordFields ["kind", "entries"] j with
  | [kind, entries] =>
    return .operation (← required (plainVariant OperationKind.all OperationKind.name true) kind)
      (← required (items read) entries)
  | _ => none

/-- The entry of a JSON value that nests at most `depth` containers. -/
def readNested : Nat → Bool → Json → Option Entry
  | 0, _, _ => none
  | depth + 1, inner, j => do
    let (kind, content) ← taggedVariant inner "type" kinds j
    if kind = "condition" then conditionOf content
    else if kind = "operation" then operationOf (readNested depth true) content
    else if kind = "join" then joinOf content
    else if kind = "limit" then limitOf content
    else if kind = "order_by" then orderByOf content
    else if kind = "group_by" then groupByOf content
    else setOf content

/-- The entry of a JSON value. -/
def ofJson (inner : Bool) (j : Json) : Option Entry := readNested j.depth inner j

end Entry

end QueryLayer
