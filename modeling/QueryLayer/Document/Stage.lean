import QueryLayer.Document.Filter
import QueryLayer.Keyed

/-!
# Stages of a pipeline

A search on the document store is a pipeline: joins, the filter, grouping or
projection, sorting and the window of rows, in this order.
-/

namespace QueryLayer

namespace Document

/-- What a group computes for one of its fields. -/
inductive GroupField where
  /-- The key of the group: each part is named and found at a path. Without
  parts all documents are one group. -/
  | key (parts : List (String × String))
  /-- An aggregation of the values at a path. -/
  | aggregate (a : Aggregation) (path : String)
deriving DecidableEq, Repr

/-- What a projection does for one of its fields. -/
inductive ProjectField where
  /-- The field is kept. -/
  | keep
  /-- The field gets the value at a path. -/
  | copy (path : String)
deriving DecidableEq, Repr

/-- A stage of a pipeline. -/
inductive Stage where
  /-- Adds the documents of a collection in which every foreign field equals
  its local field. The pairs hold the local field first. -/
  | lookup (collection : String) (pairs : List (String × String))
  /-- Makes one document of each that a lookup found. -/
  | unwind (collection : String) (keepEmpty : Bool)
  | filter (f : Filter)
  | group (fields : List (String × GroupField))
  | project (fields : List (String × ProjectField))
  | sort (keys : List (String × SortOrder))
  | skip (n : UInt64)
  | limit (n : UInt64)
  /-- Makes one document that holds the number of documents. -/
  | count (field : String)

/-- The expression for the value at a path. -/
def valueAt (path : String) : Json := .string ("$" ++ path)

/-- The name of the variable for the local field of a pair. -/
def variableName (index : Nat) : String := "v" ++ toString index

namespace GroupField

/-- The JSON of a field of a group. -/
def toJson : GroupField → Json
  | .key [] => .null
  | .key parts => .object (parts.map fun p => (p.1, valueAt p.2))
  | .aggregate .count _ => .object [("$sum", .int 1)]
  | .aggregate a path => .object [("$" ++ a.name, valueAt path)]

end GroupField

namespace ProjectField

/-- The JSON of a field of a projection. -/
def toJson : ProjectField → Json
  | .keep => .int 1
  | .copy path => valueAt path

end ProjectField

namespace Stage

/-- The direction of a sort key as a number. -/
def direction : SortOrder → Int
  | .asc => 1
  | .desc => -1

/-- The content of a lookup. -/
def lookupJson (collection : String) (pairs : List (String × String)) : Json :=
  let bindings := pairs.mapIdx fun i p => (variableName i, valueAt p.1)
  let equalities := pairs.mapIdx fun i p =>
    Json.object [("$eq", .array [valueAt p.2, .string ("$$" ++ variableName i)])]
  let expression := Json.object [("$expr", .object [("$and", .array equalities)])]
  .object [("from", .string collection), ("let", .object bindings),
    ("pipeline", .array [.object [("$match", expression)]]), ("as", .string collection)]

/-- The JSON of a stage. -/
def toJson : Stage → Json
  | .lookup collection pairs => .object [("$lookup", lookupJson collection pairs)]
  | .unwind collection false => .object [("$unwind", valueAt collection)]
  | .unwind collection true =>
    .object [("$unwind", .object [("path", valueAt collection),
      ("preserveNullAndEmptyArrays", .bool true)])]
  | .filter f => .object [("$match", f.toJson)]
  | .group fields => .object [("$group", .object (fields.map fun f => (f.1, f.2.toJson)))]
  | .project fields => .object [("$project", .object (fields.map fun f => (f.1, f.2.toJson)))]
  | .sort keys => .object [("$sort", .object (keys.map fun k => (k.1, .int (direction k.2))))]
  | .skip n => .object [("$skip", .int n.toNat)]
  | .limit n => .object [("$limit", .int n.toNat)]
  | .count field => .object [("$count", .string field)]

/-- The stages of a join. The joined side of a pair is the one that belongs to
the joined collection; where neither or both do, it is the right one. -/
def ofJoin (j : Join) : List Stage :=
  let sides (p : JoinPair) : String × String :=
    if p.collection1 = j.collection then (p.column2, p.column1) else (p.column1, p.column2)
  [.lookup j.collection.name (j.pairs.map sides),
    .unwind j.collection.name (j.joinType == .left)]

/-- The name of an aggregated column. -/
def aggregateName (p : Projection) (a : Aggregation) : String :=
  p.label.getD (a.name ++ "_" ++ p.target.field.field)

/-- The grouping stage. Columns without an aggregation add nothing to it. -/
def grouping (base : CollectionRef) (groups : List Target) (ps : List Projection) : Stage :=
  let parts := Keyed.ofPairs (groups.map fun t => (t.field.field, path base t.field))
  let aggregates := ps.filterMap fun p =>
    p.target.aggregation.map fun a =>
      (aggregateName p a, GroupField.aggregate a (path base p.target.field))
  .group (Keyed.ofPairs (("_id", .key parts) :: aggregates))

/-- The projection stage. -/
def projecting (base : CollectionRef) (ps : List Projection) : Stage :=
  .project (Keyed.ofPairs (ps.map fun p =>
    let source := path base p.target.field
    match p.label with
    | some label => (label, .copy source)
    | none => (source, .keep)))

/-- The stage that shapes the documents: grouping where something is grouped or
aggregated, and a projection where columns are chosen. -/
def shaping (base : CollectionRef) (groups : List Target) (ps : List Projection) : List Stage :=
  if ps.any (·.target.aggregation.isSome) || !groups.isEmpty then [grouping base groups ps]
  else if ps.isEmpty then []
  else [projecting base ps]

/-- The sort keys, each path once: it keeps its first place and takes its last
direction. -/
def sortKeys (base : CollectionRef) (ks : List SortKey) : List (String × SortOrder) :=
  Keyed.ofPairs (ks.map fun k => (path base k.target.field, k.order))

/-- The stage that sorts. -/
def sorting (base : CollectionRef) (ks : List SortKey) : List Stage :=
  if ks.isEmpty then [] else [.sort (sortKeys base ks)]

/-- The stages of a window of rows. -/
def ofWindow : Option Window → List Stage
  | none => []
  | some w => (if 0 < w.offset then [.skip w.offset] else []) ++ [.limit w.limit]

/-- The stage that filters. -/
def filtering (base : CollectionRef) (ps : List Predicate) : List Stage :=
  if ps.isEmpty then [] else [.filter (.conjunction (Filter.ofPredicates base ps))]

/-- The pipeline of a plan. -/
def pipeline (base : CollectionRef) (p : Plan) (ps : List Projection) : List Stage :=
  p.joins.flatMap ofJoin ++ filtering base p.predicates ++ shaping base p.groups ps ++
    sorting base p.sorts ++ ofWindow p.window

end Stage

end Document

end QueryLayer
