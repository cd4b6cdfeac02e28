import QueryLayer.Json.Entry
import QueryLayer.Definition

/-!
# Definitions in JSON
-/

namespace QueryLayer

open Json

namespace ForeignKey

/-- The action of a JSON value. -/
def actionOf (inner : Bool) : Json → Option ForeignKeyAction :=
  plainVariant ForeignKeyAction.all ForeignKeyAction.name inner

/-- The JSON of a foreign key. -/
def toJson (k : ForeignKey) : Json :=
  record [("collection", some k.collection.toJson), ("field", some (.string k.field)),
    ("on_delete", k.onDelete.map (.string ·.name)), ("on_update", k.onUpdate.map (.string ·.name))]

/-- The foreign key of a JSON value. -/
def ofJson (inner : Bool) (j : Json) : Option ForeignKey := do
  match ← recordFields ["collection", "field", "on_delete", "on_update"] j with
  | [collection, field, onDelete, onUpdate] =>
    return ⟨← required CollectionRef.ofJson collection, ← required asText field,
      ← optional (actionOf inner) onDelete, ← optional (actionOf inner) onUpdate⟩
  | _ => none

end ForeignKey

namespace Definition

/-- The JSON of a line of a create statement. -/
def toJson : Definition → Json
  | .column c =>
    record [("type", some (.string "field")), ("field", some (.string c.field)),
      ("data_type", some (.string c.dataType.name)), ("size", c.size.map (.int ·.toNat)),
      ("default", c.default.map Value.toJson),
      ("options", some (.array (c.options.map (.string ·.name))))]
  | .foreignKey field key =>
    record [("type", some (.string "foreign_key")), ("field", some (.string field)),
      ("foreign_key", some key.toJson)]

/-- The names of the kinds of lines, in the order that gives their places. -/
def kinds : List String := ["field", "foreign_key"]

/-- The largest size of a column. -/
def maxSize : Nat := UInt32.size - 1

/-- The column of a record. -/
def columnOf (j : Json) : Option Definition := do
  match ← recordFields ["field", "data_type", "size", "default", "options"] j with
  | [field, dataType, size, default, options] =>
    return .column {
      field := ← required asText field
      dataType := ← required (plainVariant DataType.all DataType.name true) dataType
      size := (← optional (asBounded maxSize) size).map Nat.toUInt32
      default := ← optional Value.ofJson default
      options := ← listed (plainVariant ColumnOption.all ColumnOption.name true) options }
  | _ => none

/-- The foreign key of a record, with the field that it is of. -/
def foreignKeyOf (j : Json) : Option Definition := do
  match ← recordFields ["field", "foreign_key"] j with
  | [field, key] =>
    return .foreignKey (← required asText field) (← required (ForeignKey.ofJson true) key)
  | _ => none

/-- The line of a create statement of a JSON value. -/
def ofJson (inner : Bool) (j : Json) : Option Definition := do
  let (kind, content) ← taggedVariant inner "type" kinds j
  if kind = "field" then columnOf content else foreignKeyOf content

end Definition

end QueryLayer
