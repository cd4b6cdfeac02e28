import QueryLayer.Document.Regex
import QueryLayer.Json.Value
import QueryLayer.Plan

/-!
# Filters of the document store

A filter says which documents are taken. Fields of the searched collection are
found under their own name, and fields of a joined collection under the name of
that collection. A negation is written around each predicate it holds.
-/

namespace QueryLayer

namespace Document

/-- The name of the back end in messages. -/
def backend : String := "document store"

/-- Where a field is found in the documents of a search on a collection. -/
def path (base : CollectionRef) (f : FieldRef) : String :=
  match f.collection with
  | some c => if c = base.name then f.field else c ++ "." ++ f.field
  | none => f.field

/-- A filter. -/
inductive Filter where
  /-- Takes every document. -/
  | everything
  /-- Tests the value at a path. -/
  | field (path : String) (c : Criterion)
  | and (fs : List Filter)
  | or (fs : List Filter)
  /-- Takes what none of the filters takes. -/
  | nor (fs : List Filter)
deriving Inhabited

/-- The regular expression of a pattern. A pattern is a text. -/
def regexOf (v : Value) : Json :=
  match v with
  | .text s => .string (String.ofList (likeRegex s.toList))
  | _ => .null

/-- The document of a criterion. -/
def criterionJson : Criterion → Json
  | .equals v => .object [("$eq", v.toJson)]
  | .like v => .object [("$regex", regexOf v)]
  | .lower v => .object [("$lt", v.toJson)]
  | .higher v => .object [("$gt", v.toJson)]
  | .null => .object [("$eq", .null)]
  | .oneOf vs => .object [("$in", .array (vs.map Value.toJson))]
  | .between lower upper => .object [("$gte", lower.toJson), ("$lte", upper.toJson)]

namespace Filter

mutual

/-- The document of a filter. -/
def toJson : Filter → Json
  | .everything => .object []
  | .field path c => .object [(path, criterionJson c)]
  | .and fs => .object [("$and", .array (toJsonAll fs))]
  | .or fs => .object [("$or", .array (toJsonAll fs))]
  | .nor fs => .object [("$nor", .array (toJsonAll fs))]

/-- The documents of several filters. -/
def toJsonAll : List Filter → List Json
  | [] => []
  | f :: fs => toJson f :: toJsonAll fs

end

mutual

/-- The filter of a predicate. -/
def ofPredicate (base : CollectionRef) : Predicate → Filter
  | .test t => .field (path base t.target.field) t.criterion
  | .not p => .nor [ofPredicate base p]
  | .all ps => .and (ofPredicates base ps)
  | .any ps => .or (ofPredicates base ps)

/-- The filters of several predicates. -/
def ofPredicates (base : CollectionRef) : List Predicate → List Filter
  | [] => []
  | p :: ps => ofPredicate base p :: ofPredicates base ps

end

/-- The filter that several filters make together. -/
def conjunction : List Filter → Filter
  | [] => .everything
  | [f] => f
  | fs => .and fs

end Filter

end Document

end QueryLayer
