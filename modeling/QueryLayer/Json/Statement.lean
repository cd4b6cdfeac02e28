import QueryLayer.Json.Definition
import QueryLayer.Statement

/-!
# Statements in JSON

A statement carries its kind under `kind`. The search inside a create has no
kind, since it can only be a find.
-/

namespace QueryLayer

open Json

namespace Search

/-- The members of a search. -/
def members (s : Search) : List (String × Option Json) :=
  [("collection", some s.collection.toJson), ("entries", some (.array (s.entries.map Entry.toJson)))]

/-- The search of a record. -/
def ofJson (j : Json) : Option Search := do
  match ← recordFields ["collection", "entries"] j with
  | [collection, entries] =>
    return ⟨← required CollectionRef.ofJson collection, ← listed (Entry.ofJson true) entries⟩
  | _ => none

end Search

namespace Find

/-- The members of a find. -/
def members (s : Find) : List (String × Option Json) :=
  [("collection", some s.collection.toJson),
    ("projection", some (.array (s.projection.map Projection.toJson))),
    ("entries", some (.array (s.entries.map Entry.toJson)))]

/-- The find of a record. -/
def ofJson (j : Json) : Option Find := do
  match ← recordFields ["collection", "projection", "entries"] j with
  | [collection, projection, entries] =>
    return {
      collection := ← required CollectionRef.ofJson collection
      projection := ← listed (Projection.ofJson true) projection
      entries := ← listed (Entry.ofJson true) entries }
  | _ => none

end Find

namespace Insert

/-- The members of an insert. -/
def members (s : Insert) : List (String × Option Json) :=
  [("collection", some s.collection.toJson),
    ("entries", some (.array (s.columns.map InsertColumn.toJson)))]

/-- The insert of a record. -/
def ofJson (j : Json) : Option Insert := do
  match ← recordFields ["collection", "entries"] j with
  | [collection, columns] =>
    return ⟨← required CollectionRef.ofJson collection, ← listed (InsertColumn.ofJson true) columns⟩
  | _ => none

end Insert

namespace Create

/-- The members of a create. -/
def members (s : Create) : List (String × Option Json) :=
  [("collection", some s.collection.toJson),
    ("entries", some (.array (s.definitions.map Definition.toJson))),
    ("engine", s.engine.map .string), ("include", s.included.map (record ·.members))]

/-- The create of a record. -/
def ofJson (j : Json) : Option Create := do
  match ← recordFields ["collection", "entries", "engine", "include"] j with
  | [collection, definitions, engine, included] =>
    return ⟨← required CollectionRef.ofJson collection, ← listed (Definition.ofJson true) definitions,
      ← optional asText engine, ← optional Find.ofJson included⟩
  | _ => none

end Create

namespace DropTarget

/-- The JSON of what a drop removes. -/
def toJson : DropTarget → Json
  | .collection c => .object [("collection", c.toJson)]
  | .database name => .object [("database", .string name)]

/-- What a drop removes, of a JSON value: an object with one key. -/
def ofJson : Json → Option DropTarget
  | .object [(key, j)] =>
    if key = "collection" then (CollectionRef.ofJson j).map .collection
    else if key = "database" then (asText j).map .database
    else none
  | _ => none

end DropTarget

namespace Statement

/-- The members of a statement beside its kind. -/
def members : Statement → List (String × Option Json)
  | .find s => s.members
  | .insert s => s.members
  | .update s | .delete s | .replace s | .count s => s.members
  | .create s => s.members
  | .drop target => [("target", some target.toJson)]
  | .clear c => [("collection", some c.toJson)]

/-- The JSON of a statement. -/
def toJson (s : Statement) : Json := record (("kind", some (.string s.kind)) :: s.members)

/-- The names of the kinds of statements, in the order that gives their places. -/
def kinds : List String :=
  ["find", "insert", "update", "delete", "replace", "create", "drop", "clear", "count"]

/-- The drop of a record. -/
def dropOf (j : Json) : Option Statement := do
  match ← recordFields ["target"] j with
  | [target] => return .drop (← required DropTarget.ofJson target)
  | _ => none

/-- The clear of a record. -/
def clearOf (j : Json) : Option Statement := do
  match ← recordFields ["collection"] j with
  | [collection] => return .clear (← required CollectionRef.ofJson collection)
  | _ => none

/-- The statement of a JSON value. -/
def ofJson (j : Json) : Option Statement := do
  let (kind, content) ← taggedVariant false "kind" kinds j
  if kind = "find" then (Find.ofJson content).map .find
  else if kind = "insert" then (Insert.ofJson content).map .insert
  else if kind = "update" then (Search.ofJson content).map .update
  else if kind = "delete" then (Search.ofJson content).map .delete
  else if kind = "replace" then (Search.ofJson content).map .replace
  else if kind = "create" then (Create.ofJson content).map .create
  else if kind = "drop" then dropOf content
  else if kind = "clear" then clearOf content
  else (Search.ofJson content).map .count

end Statement

end QueryLayer
