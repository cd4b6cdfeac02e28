import QueryLayer.Sql.Render
import QueryLayer.Document.Render
import QueryLayer.Dialect.Registry
import QueryLayer.Json.Token

/-!
# Query languages

Statements are rendered for a dialect of SQL or for the document store, and
either way give a command that has a text.
-/

namespace QueryLayer

/-- A language that statements are rendered in. -/
inductive Language where
  | sql (d : Dialect)
  | document

/-- A command ready to be executed. -/
inductive Command where
  | sql (q : Sql.Query)
  | document (c : Document.Command)

namespace Command

/-- The text of a command. -/
def text : Command → String
  | .sql q => q.text
  | .document c => c.toJson.compact

end Command

namespace Language

/-- The name of the document store among the dialects. -/
def documentName : String := "document"

/-- The language of a name: the document store, or a registered dialect. -/
def named? (r : Registry) (name : String) : Option Language :=
  if Text.sameName name documentName then some .document else (r.get? name).map .sql

/-- The message where no language has the name. -/
def unknownMessage (name : String) : String := "Unknown dialect '" ++ name ++ "'"

/-- The command of a statement, its markers filled from the runtime values. -/
def compile (l : Language) (s : Statement) (values : List Value) : Except QueryError Command :=
  match l with
  | .sql d => (Sql.render d s values).map .sql
  | .document => (Document.render s values).map .document

end Language

end QueryLayer
