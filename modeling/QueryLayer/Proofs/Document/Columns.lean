import QueryLayer.Proofs.Document.Grouped
import QueryLayer.Proofs.Sql.Legible
import QueryLayer.Sql.Render

/-!
# The columns that a find returns

SQL returns every column of a find. On the document store the shaping stage
computes them: a projection takes the value at the path of each column, and a
grouping has an accumulator for each aggregated column. Other columns have none,
so a find that groups or aggregates returns the aggregated columns only
(`find_columns`), and without those that are called like the identity.
-/

namespace QueryLayer

namespace Document

/-! ## What a field is computed from -/

/-- What a field of the returned documents is computed from. -/
inductive Computed where
  /-- The value at a path. -/
  | value (path : String)
  /-- An aggregation of the values at a path. -/
  | aggregate (a : Aggregation) (path : String)
  /-- The number of documents. -/
  | number
deriving DecidableEq, Repr

namespace Computed

/-- What an accumulator of a grouping computes. -/
def ofAccumulator : Json → Option Computed
  | .object [("$sum", .int 1)] => some .number
  | .object [("$first", e)] => (pathOf e).map .value
  | .object [(operator, e)] => do
    let a ← Aggregation.all.find? fun a => "$" ++ a.name = operator
    return .aggregate a (← pathOf e)
  | _ => none

/-- What a field of a projection has. -/
def ofProjection (name : String) : Json → Option Computed
  | .int 1 => some (.value name)
  | e => (pathOf e).map .value

/-- What a column says. A count is the number of documents, whatever its column: the
path of the field plays no part in it. So this count is not `COUNT(field)`, which
leaves out the rows where the field is missing. -/
def ofColumn (base : CollectionRef) (p : Projection) : Computed :=
  match p.target.aggregation with
  | none => .value (path base p.target.field)
  | some .count => .number
  | some a => .aggregate a (path base p.target.field)

/-- An accumulator computes its aggregation. -/
theorem ofAccumulator_aggregate {base : CollectionRef} {p : Projection} {a : Aggregation}
    (ha : p.target.aggregation = some a) :
    ofAccumulator (GroupField.aggregate a (path base p.target.field)).toJson =
      some (ofColumn base p) := by
  have hpath : pathOf (.string ("$" ++ path base p.target.field)) =
      some (path base p.target.field) :=
    pathOf_valueAt _
  rw [ofColumn, ha]
  cases a with
  | count => rfl
  | sum | avg | min | max =>
    simp [GroupField.toJson, ofAccumulator, Aggregation.all, Aggregation.name, valueAt, hpath]

/-- A field of a projection has the value of its source. -/
theorem ofProjection_toJson (name : String) (field : ProjectField) :
    ofProjection name field.toJson = some (.value (field.source name)) := by
  cases field with
  | keep => rfl
  | copy path =>
    have hcopy : ofProjection name (valueAt path) = (pathOf (valueAt path)).map .value := rfl
    rw [ProjectField.toJson, hcopy, pathOf_valueAt]
    rfl

end Computed

/-- What a shape computes for a field of the returned documents. The identity of
a grouping says which documents are a group, and computes nothing of it. -/
def Shape.output (name : String) : Shape → Option Computed
  | .group fields =>
    if name = identity then none else (Keyed.get? name fields).bind Computed.ofAccumulator
  | .project fields => (Keyed.get? name fields).bind (Computed.ofProjection name)

/-! ## The columns of a find -/

section Columns

variable {base : CollectionRef} {groups : List Target} {ps : List Projection} {p : Projection}

/-- The column is one that a grouping has an accumulator for, where the find
groups. -/
def Comes (base : CollectionRef) (groups : List Target) (ps : List Projection) (p : Projection) :
    Prop :=
  grouped groups ps → p.target.aggregation.isSome ∧ columnName base p ≠ identity

/-- Names tell columns apart. -/
theorem eq_of_columnName_eq (hnames : (ps.map (columnName base)).Nodup) {q : Projection}
    (hp : p ∈ ps) (hq : q ∈ ps) (hname : columnName base q = columnName base p) : q = p :=
  List.inj_on_of_nodup_map hnames hq hp hname

theorem alone_of_nodup (hnames : (ps.map (columnName base)).Nodup) (hp : p ∈ ps) :
    Alone base ps p := by
  intro q hq hname
  rw [eq_of_columnName_eq hnames hp hq hname]
  exact ⟨rfl, rfl⟩

/-- The shape of a grouping. -/
def groupShape (base : CollectionRef) (groups : List Target) (ps : List Projection) : Shape :=
  .group ((groupFields base groups ps).map fun f => (f.1, f.2.toJson))

/-- The shape of a projection. -/
def projectShape (base : CollectionRef) (ps : List Projection) : Shape :=
  .project ((projectFields base ps).map fun f => (f.1, f.2.toJson))

/-- A grouping computes the aggregated columns as they say. -/
theorem output_groupShape (hnames : (ps.map (columnName base)).Nodup) (hp : p ∈ ps)
    (haggregated : p.target.aggregation.isSome) (hidentity : columnName base p ≠ identity) :
    (groupShape base groups ps).output (columnName base p) = some (.ofColumn base p) := by
  obtain ⟨a, ha⟩ := Option.isSome_iff_exists.1 haggregated
  have hmem : (columnName base p, .aggregate a (path base p.target.field)) ∈
      groupFields base groups ps :=
    aggregate_mem_groupFields hidentity hp ha (alone_of_nodup hnames hp)
  have hget := (Keyed.get?_eq_some_iff Keyed.nodup_keys_ofPairs).2 hmem
  rw [groupShape, Shape.output, if_neg hidentity, Keyed.get?_map_snd, groupFields, hget,
    Option.map_some, Option.bind_some, Computed.ofAccumulator_aggregate ha]

/-- **A grouping has nothing of the other columns.** -/
theorem output_groupShape_eq_none (hnames : (ps.map (columnName base)).Nodup) (hp : p ∈ ps)
    (h : p.target.aggregation.isSome → columnName base p = identity) :
    (groupShape base groups ps).output (columnName base p) = none := by
  rw [groupShape, Shape.output]
  split
  · rfl
  · next hidentity =>
    have hnone : Keyed.get? (columnName base p) (groupFields base groups ps) = none := by
      rw [Keyed.get?_eq_none_iff]
      intro hkey
      obtain ⟨⟨name, value⟩, hmem, rfl⟩ := List.mem_map.1 hkey
      rcases eq_of_mem_groupFields_pairs (Keyed.mem_of_mem_ofPairs hmem) with hfield |
        ⟨q, hq, a, ha, hfield⟩
      · exact hidentity (Prod.mk.inj hfield).1
      · obtain rfl := eq_of_columnName_eq hnames hp hq (Prod.mk.inj hfield).1.symm
        exact hidentity (h (by rw [ha]; rfl))
    rw [Keyed.get?_map_snd, hnone]
    rfl

/-- A projection has every column as it says. -/
theorem output_projectShape (hplain : ∀ q ∈ ps, q.target.aggregation = none)
    (hnames : (ps.map (columnName base)).Nodup) (hp : p ∈ ps) :
    (projectShape base ps).output (columnName base p) = some (.ofColumn base p) := by
  obtain ⟨value, hmem, hsource⟩ := exists_mem_projectFields hplain hp (alone_of_nodup hnames hp)
  have hget := (Keyed.get?_eq_some_iff Keyed.nodup_keys_ofPairs).2 hmem
  rw [projectShape, Shape.output, Keyed.get?_map_snd, projectFields, hget, Option.map_some,
    Option.bind_some, Computed.ofProjection_toJson, hsource, Computed.ofColumn, hplain p hp]

/-- Every column stands in the select of SQL. -/
theorem projection_infix_of_render {d : Dialect} {s : Find} {values : List Value} {q : Sql.Query}
    (h : Sql.render d (.find s) values = .ok q) (hp : p ∈ s.projection) :
    Sql.projection p <:+: q.command := by
  have hselect : (Sql.select d s values).map (Sql.single d) = .ok q := h
  obtain ⟨f, hf, rfl⟩ := Run.outcome_map_eq_ok.1 hselect
  rw [Sql.select] at hf
  obtain ⟨plan, -, hcommand⟩ := Run.outcome_bind_eq_ok.1 hf
  obtain rfl := Except.ok.inj hcommand
  have hne : ¬ s.projection.isEmpty = true := by simpa using List.ne_nil_of_mem hp
  have hcolumns : Sql.projection p <:+: Sql.projections s.projection := by
    rw [Sql.projections, if_neg hne]
    exact Sql.Fragment.infix_join (List.mem_map_of_mem hp)
  refine hcolumns.trans (List.infix_cons ?_)
  simp only [List.append_assoc]
  exact (List.prefix_append _ _).isInfix

/-- **The columns that a find returns.** The pipeline of a find with columns of
different names has one shaping stage. A projection has a field for each column,
computed as the column says, while a grouping has one for the aggregated columns
only, as long as they are not called like the identity, and nothing of the others.
SQL returns them all. -/
theorem find_columns {s : Find} {values : List Value} {cmd : Command}
    (h : render (.find s) values = .ok cmd) (hcolumns : s.projection ≠ [])
    (hnames : (s.projection.map (columnName s.collection)).Nodup) :
    ∃ (stages : List Json) (shape : Shape),
      cmd.toJson = .object [("operation", .string "aggregate"),
        ("collection", .string s.collection.name), ("pipeline", .array stages)] ∧
      stages.filterMap Shape.read = [shape] ∧
      ∀ p ∈ s.projection,
        (Comes s.collection (Entry.partsAll s.entries).groups s.projection p →
          shape.output (columnName s.collection p) = some (.ofColumn s.collection p)) ∧
        (¬ Comes s.collection (Entry.partsAll s.entries).groups s.projection p →
          shape.output (columnName s.collection p) = none) ∧
        ∀ d q, Sql.render d (.find s) values = .ok q → Sql.projection p <:+: q.command := by
  obtain ⟨stages, htoJson, hshapes⟩ := find_toJson h
  have hselect : ∀ p ∈ s.projection, ∀ d q, Sql.render d (.find s) values = .ok q →
      Sql.projection p <:+: q.command := fun p hp d q hq => projection_infix_of_render hq hp
  rw [shaping_eq] at hshapes
  by_cases hgrouped : grouped (Entry.partsAll s.entries).groups s.projection
  · rw [if_pos hgrouped] at hshapes
    refine ⟨stages, groupShape s.collection (Entry.partsAll s.entries).groups s.projection, htoJson,
      hshapes, fun p hp => ⟨fun hcomes => ?_, fun hlost => ?_, hselect p hp⟩⟩
    · obtain ⟨haggregated, hidentity⟩ := hcomes hgrouped
      exact output_groupShape hnames hp haggregated hidentity
    · refine output_groupShape_eq_none hnames hp fun haggregated => ?_
      by_contra hidentity
      exact hlost fun _ => ⟨haggregated, hidentity⟩
  · rw [if_neg hgrouped, if_neg (by simpa using hcolumns)] at hshapes
    refine ⟨stages, projectShape s.collection s.projection, htoJson, hshapes,
      fun p hp => ⟨fun _ => ?_, fun hlost => ?_, hselect p hp⟩⟩
    · exact output_projectShape (aggregation_eq_none hgrouped) hnames hp
    · exact absurd (fun htrue => absurd htrue hgrouped) hlost

end Columns

/-- The number of users in each city, with another column. -/
def perCity (other : Projection) : Find := ⟨⟨⟨"shop", "users"⟩, [.groupBy ⟨.plain "city", none⟩]⟩,
  [other, ⟨⟨.plain "id", some .count⟩, some "people"⟩]⟩

theorem find_perCity_columns : ∃ (cmd : Command) (stages : List Json) (shape : Shape),
    render (.find (perCity ⟨⟨.plain "age", some .avg⟩, none⟩)) [] = .ok cmd ∧
      cmd.toJson = .object [("operation", .string "aggregate"), ("collection", .string "users"),
        ("pipeline", .array stages)] ∧
      stages.filterMap Shape.read = [shape] ∧
      shape.output "avg_age" = some (.aggregate .avg "age") ∧
      shape.output "people" = some .number := by
  have hc : render (.find (perCity ⟨⟨.plain "age", some .avg⟩, none⟩)) [] = .ok _ := rfl
  obtain ⟨stages, shape, htoJson, hshape, hcolumns⟩ :=
    find_columns hc (List.cons_ne_nil _ _) (by decide)
  have havg := (hcolumns _ (.head _)).1 fun _ => ⟨rfl, by decide⟩
  have hpeople := (hcolumns _ (.tail _ (.head _))).1 fun _ => ⟨rfl, by decide⟩
  exact ⟨_, stages, shape, hc, htoJson, hshape, havg, hpeople⟩

/-- **A plain column beside an aggregated one does not come out.** SQL returns the
city. -/
theorem find_perCity_loses_city :
    ∃ (cmd : Command) (stages : List Json) (shape : Shape) (q : Sql.Query),
    render (.find (perCity ⟨⟨.plain "city", none⟩, none⟩)) [] = .ok cmd ∧
      cmd.toJson = .object [("operation", .string "aggregate"), ("collection", .string "users"),
        ("pipeline", .array stages)] ∧
      stages.filterMap Shape.read = [shape] ∧
      shape.output "city" = none ∧ shape.output "people" = some .number ∧
      Sql.render .sqlite (.find (perCity ⟨⟨.plain "city", none⟩, none⟩)) [] = .ok q ∧
      q.text = "SELECT \"city\",COUNT(\"id\") AS \"people\" FROM \"users\"  GROUP BY \"city\"" := by
  refine ⟨_, _, _, _, rfl, rfl, rfl, rfl, rfl, rfl, by decide +kernel⟩

end Document

end QueryLayer
