import QueryLayer.Json.Statement
import QueryLayer.Json.Reader

/-!
# Scripts

A script is a JSON array of steps, each a statement with its runtime values.
-/

namespace QueryLayer

open Json

namespace Script

/-- A statement and its runtime values. -/
structure Step where
  /-- The statement. -/
  statement : Statement
  /-- The values of its markers, in order. -/
  values : List Value

namespace Step

/-- The JSON of a step. -/
def toJson (s : Step) : Json :=
  .object [("statement", s.statement.toJson), ("values", .array (s.values.map Value.toJson))]

/-- The step of a JSON value. -/
def ofJson (j : Json) : Option Step := do
  match ← recordFields ["statement", "values"] j with
  | [statement, values] =>
    return ⟨← required Statement.ofJson statement, ← listed Value.ofJson values⟩
  | _ => none

end Step

/-- The steps of a text. -/
def parse (text : String) : Option (List Step) :=
  (Json.read depthLimit text).bind (items Step.ofJson)

/-- The text of some steps. -/
def write (steps : List Step) : String := (Json.array (steps.map Step.toJson)).compact

end Script

end QueryLayer
