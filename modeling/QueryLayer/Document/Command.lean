import QueryLayer.Document.Stage

/-!
# Commands of the document store
-/

namespace QueryLayer

namespace Document

/-- What an update does to a field. -/
inductive UpdateOperator where
  | set
  /-- Adds to the value of the field. -/
  | inc
  /-- Multiplies the value of the field. -/
  | mul
deriving DecidableEq, Repr

namespace UpdateOperator

/-- The name in commands. -/
def name : UpdateOperator → String
  | .set => "$set"
  | .inc => "$inc"
  | .mul => "$mul"

end UpdateOperator

/-- Changes of fields, by operator and then by path. -/
abbrev Changes := List (UpdateOperator × List (String × Value))

namespace Changes

/-- The changes with one more. A later change by the same operator at the same
path replaces the earlier one. -/
def put (changes : Changes) (op : UpdateOperator) (path : String) (v : Value) : Changes :=
  Keyed.put op (Keyed.put path v ((Keyed.get? op changes).getD [])) changes

end Changes

/-- An index of a collection. -/
structure Index where
  /-- The indexed field. -/
  field : String
  /-- The name of the index. -/
  name : String
  /-- No two documents agree in the field. -/
  unique : Bool
deriving DecidableEq, Repr

/-- A command of the document store. -/
inductive Command where
  | aggregate (collection : String) (pipeline : List Stage)
  | insert (collection : String) (documents : List (List (String × Value)))
  | update (collection : String) (filter : Filter) (changes : Changes)
  | delete (collection : String) (filter : Filter)
  | replace (collection : String) (filter : Filter) (content : List (String × Value))
  | create (collection : String) (indexes : List Index)
  | drop (collection : String)
  | dropDatabase (database : String)

/-- The JSON of a document. -/
def documentJson (fields : List (String × Value)) : Json :=
  .object (fields.map fun f => (f.1, f.2.toJson))

namespace Index

/-- The JSON of an index. -/
def toJson (i : Index) : Json :=
  .object [("key", .object [(i.field, .int 1)]), ("name", .string i.name),
    ("unique", .bool i.unique)]

end Index

namespace Command

/-- The collection of a command. The removal of a database has none. -/
def collection : Command → Option String
  | .aggregate c _ | .insert c _ | .update c _ _ | .delete c _ | .replace c _ _ | .create c _
  | .drop c => some c
  | .dropDatabase _ => none

/-- The JSON of a command: its operation, its collection and what they need. -/
def toJson : Command → Json
  | .aggregate c stages => command "aggregate" c [("pipeline", .array (stages.map Stage.toJson))]
  | .insert c documents => command "insert" c [("documents", .array (documents.map documentJson))]
  | .update c filter changes => command "update" c [("filter", filter.toJson),
      ("update", .object (changes.map fun p => (p.1.name, documentJson p.2)))]
  | .delete c filter => command "delete" c [("filter", filter.toJson)]
  | .replace c filter content => command "replace" c [("filter", filter.toJson),
      ("replacement", documentJson content)]
  | .create c indexes => command "create" c [("indexes", .array (indexes.map Index.toJson))]
  | .drop c => command "drop" c []
  | .dropDatabase name =>
    .object [("operation", .string "drop_database"), ("database", .string name)]
where
  /-- A command on a collection. -/
  command (operation collection : String) (rest : List (String × Json)) : Json :=
    .object (("operation", .string operation) :: ("collection", .string collection) :: rest)

end Command

end Document

end QueryLayer
