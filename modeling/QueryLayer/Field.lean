/-!
# Field references

A reference is up to three parts joined by points: the database, the
collection and the field. It is split at its last two points, so further points
stay in the database. A `Target` is a reference with an aggregation around it.
-/

namespace QueryLayer

/-- A field, with its collection and database where they are given. -/
structure FieldRef where
  /-- The database. -/
  database : Option String
  /-- The collection. -/
  collection : Option String
  /-- The field itself. -/
  field : String
deriving DecidableEq, Repr, Inhabited

namespace FieldRef

/-- Splits a text at its last point. -/
def splitLast (cs : List Char) : Option (List Char × List Char) :=
  let after := cs.reverse.takeWhile (· ≠ '.')
  match cs.reverse.dropWhile (· ≠ '.') with
  | [] => none
  | _ :: before => some (before.reverse, after.reverse)

/-- A reference without a collection. The text is not split. -/
def plain (field : String) : FieldRef := ⟨none, none, field⟩

/-- The reference a text is, split at its last two points. -/
def parse (s : String) : FieldRef :=
  match splitLast s.toList with
  | none => plain s
  | some (before, field) =>
    match splitLast before with
    | none => ⟨none, some (String.ofList before), String.ofList field⟩
    | some (database, collection) =>
      ⟨some (String.ofList database), some (String.ofList collection), String.ofList field⟩

/-- The parts that are given, in order. -/
def parts (f : FieldRef) : List String := f.database.toList ++ f.collection.toList ++ [f.field]

/-- The parts joined by points. -/
def display (f : FieldRef) : String := ".".intercalate f.parts

end FieldRef

/-- A function of all values of a field. -/
inductive Aggregation where
  | count
  | sum
  | avg
  | min
  | max
deriving DecidableEq, Repr

namespace Aggregation

/-- The name in queries. -/
def name : Aggregation → String
  | .count => "count"
  | .sum => "sum"
  | .avg => "avg"
  | .min => "min"
  | .max => "max"

/-- The name in SQL. -/
def keyword : Aggregation → String
  | .count => "COUNT"
  | .sum => "SUM"
  | .avg => "AVG"
  | .min => "MIN"
  | .max => "MAX"

/-- All aggregations. -/
def all : List Aggregation := [.count, .sum, .avg, .min, .max]

end Aggregation

/-- A field, or an aggregation of it. -/
structure Target where
  /-- The field. -/
  field : FieldRef
  /-- The aggregation around the field. -/
  aggregation : Option Aggregation
deriving DecidableEq, Repr, Inhabited

namespace Target

/-- The field a text refers to. -/
def parse (s : String) : Target := ⟨FieldRef.parse s, none⟩

/-- An aggregation of the field a text refers to. -/
def aggregated (a : Aggregation) (s : String) : Target := ⟨FieldRef.parse s, some a⟩

end Target

end QueryLayer
