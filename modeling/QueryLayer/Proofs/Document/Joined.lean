import QueryLayer.Document.Render
import QueryLayer.Proofs.Walk.Parts
import QueryLayer.Sql.Clause

/-!
# The columns that lookups compare

SQL compares the two columns of an equality as they are, each with its table. A
lookup compares a field of the joined documents with a variable, and the
variable stands for the value at a path of the local document
(`Lookup.Compares`). A local document holds the fields of the base collection
under their names, and those of a collection that was joined before under its
name (`localPath`). The lookup takes the same two columns as SQL, but the local
one always at its plain name: that is where it is if it belongs to the base
collection, and nowhere else (`find_lookups`).
-/

namespace QueryLayer

/-- The equality has one side in the joined collection. This gives the column of
that side, and the collection and the column of the other side. -/
inductive JoinPair.Across (joined : CollectionRef) :
    JoinPair → String → CollectionRef → String → Prop
  | left {foreign column : String} {other : CollectionRef} (h : other ≠ joined) :
      Across joined ⟨joined, foreign, some other, column⟩ foreign other column
  | right {foreign column : String} {other : CollectionRef} (h : other ≠ joined) :
      Across joined ⟨other, column, some joined, foreign⟩ foreign other column

namespace Sql

/-- The text of a join compares two columns, in one order or the other. -/
def Compares (d : Dialect) (j : Join) (c c' : CollectionRef × String) : Prop :=
  column d (some c.1) c.2 ++ [.text "="] ++ column d (some c'.1) c'.2 <:+: join d j ∨
    column d (some c'.1) c'.2 ++ [.text "="] ++ column d (some c.1) c.2 <:+: join d j

/-- **SQL compares the two columns**, each with its table. -/
theorem compares_of_across (d : Dialect) {j : Join} {pair : JoinPair} {foreign name : String}
    {other : CollectionRef} {i : ℕ} (hpair : j.pairs[i]? = some pair)
    (h : pair.Across j.collection foreign other name) :
    Compares d j (j.collection, foreign) (other, name) := by
  have hpairs : column d (some pair.collection1) pair.column1 ++ [.text "="] ++
      column d pair.collection2 pair.column2 <:+: joinPairs d j.pairs := by
    obtain ⟨hi, rfl⟩ := List.getElem?_eq_some_iff.1 hpair
    exact (List.infix_cons List.infix_rfl).trans
      (List.infix_of_mem_flatten (List.mem_mapIdx.2 ⟨i, hi, rfl⟩))
  have hjoin : joinPairs d j.pairs <:+: join d j :=
    List.infix_cons (List.suffix_append _ _).isInfix
  cases h with
  | left h => exact .inl (hpairs.trans hjoin)
  | right h => exact .inr (hpairs.trans hjoin)

end Sql

namespace Document

/-- The path of a column in the documents that a search on a collection has
joined so far. -/
def localPath (base other : CollectionRef) (column : String) : String :=
  if other = base then column else other.name ++ "." ++ column

/-! ## Lookups -/

/-- What a lookup says: the joined collection, what its variables stand for, and
the equalities. -/
structure Lookup where
  /-- The joined collection. -/
  collection : String
  /-- The variables. -/
  bindings : List (String × Json)
  /-- The equalities, all of which must hold. -/
  equalities : List Json

namespace Lookup

/-- The JSON of a lookup. -/
def toJson (l : Lookup) : Json :=
  .object [("from", .string l.collection), ("let", .object l.bindings),
    ("pipeline", .array [.object [("$match",
      .object [("$expr", .object [("$and", .array l.equalities)])])]]),
    ("as", .string l.collection)]

/-- An equality compares a field of the joined documents with what is at a path
of the local document. -/
def Compares (l : Lookup) (index : ℕ) (foreign path : String) : Prop :=
  ∃ name, l.equalities[index]? =
      some (.object [("$eq", .array [valueAt foreign, .string ("$$" ++ name)])]) ∧
    Keyed.get? name l.bindings = some (valueAt path)

/-- The lookup of pairs of a local and a joined field. -/
def ofPairs (collection : String) (pairs : List (String × String)) : Lookup where
  collection := collection
  bindings := pairs.mapIdx fun i p => (variableName i, valueAt p.1)
  equalities := pairs.mapIdx fun i p =>
    .object [("$eq", .array [valueAt p.2, .string ("$$" ++ variableName i)])]

variable {collection foreign path name : String} {pairs : List (String × String)} {i j : ℕ}
  {p : String × String}

theorem toJson_ofPairs (collection : String) (pairs : List (String × String)) :
    (ofPairs collection pairs).toJson = Stage.lookupJson collection pairs := rfl

theorem variableName_inj : variableName i = variableName j ↔ i = j := by
  refine ⟨fun h => ?_, congrArg variableName⟩
  have hdigits : Nat.toDigits 10 i = Nat.toDigits 10 j := by
    rw [variableName, variableName, String.append_right_inj] at h
    exact String.ofList_injective h
  -- the digits read back as the number
  have hi := Nat.ofDigitChars_toDigits (b := 10) (n := i) (by decide) (by decide)
  rwa [hdigits, Nat.ofDigitChars_toDigits (by decide) (by decide), eq_comm] at hi

theorem valueAt_inj : valueAt path = valueAt name ↔ path = name := by
  rw [valueAt, valueAt, Json.string.injEq, String.append_right_inj]

/-- No variable stands for two fields. -/
theorem nodup_bindings (collection : String) (pairs : List (String × String)) :
    ((ofPairs collection pairs).bindings.map Prod.fst).Nodup := by
  refine List.pairwise_iff_getElem.2 fun i j _ _ hij => ?_
  simp only [ofPairs, List.getElem_map, List.getElem_mapIdx]
  exact fun h => Nat.ne_of_lt hij (variableName_inj.1 h)

theorem get?_bindings (hp : pairs[i]? = some p) :
    Keyed.get? (variableName i) (ofPairs collection pairs).bindings = some (valueAt p.1) := by
  refine (Keyed.get?_eq_some_iff (nodup_bindings collection pairs)).2 (List.mem_of_getElem? (i := i) ?_)
  rw [ofPairs, List.getElem?_mapIdx, hp, Option.map_some]

/-- **A lookup compares its pairs**, each with the local field at the path it
gives and at no other. -/
theorem compares_ofPairs_iff {column : String} (hp : pairs[i]? = some (column, foreign)) :
    (ofPairs collection pairs).Compares i foreign path ↔ path = column := by
  have hequality : (ofPairs collection pairs).equalities[i]? =
      some (.object [("$eq", .array [valueAt foreign, .string ("$$" ++ variableName i)])]) := by
    rw [ofPairs, List.getElem?_mapIdx, hp, Option.map_some]
  constructor
  · rintro ⟨name, hname, hbinding⟩
    obtain rfl : variableName i = name := by simpa using hequality.symm.trans hname
    rw [get?_bindings hp] at hbinding
    exact (valueAt_inj.1 (Option.some.inj hbinding)).symm
  · rintro rfl
    exact ⟨variableName i, hequality, get?_bindings hp⟩

end Lookup

/-! ## Joins -/

section Join

variable {j : Join} {pr : JoinPair} {foreign column : String} {other base : CollectionRef}

/-- The two columns of an equality, the local one first. Where neither or both
belong to the joined collection, the right one counts as joined. -/
def sides (joined : CollectionRef) (p : JoinPair) : String × String :=
  if p.collection1 = joined then (p.column2, p.column1) else (p.column1, p.column2)

theorem ofJoin_eq (j : Join) : Stage.ofJoin j =
    [.lookup j.collection.name (j.pairs.map (sides j.collection)),
      .unwind j.collection.name (j.joinType == .left)] := rfl

/-- The joined column is found on either side. -/
theorem sides_of_across (h : pr.Across j.collection foreign other column) :
    sides j.collection pr = (column, foreign) := by
  cases h with
  | left h => rw [sides, if_pos rfl]
  | right h => rw [sides, if_neg h]

/-- A column of another collection than the base is not at its plain name. -/
theorem localPath_eq_iff : localPath base other column = column ↔ other = base := by
  rw [localPath]
  split
  · next h => exact iff_of_true rfl h
  · next h =>
    refine iff_of_false (fun heq => ?_) h
    have hlength := congrArg String.length heq
    simp only [String.length_append] at hlength
    have hdot : ".".length = 1 := rfl
    omega

/-- The stages of the joins stand in pairs. -/
theorem getElem?_flatMap_ofJoin {js : List Join} {rest : List Stage} {k : ℕ} (hj : js[k]? = some j) :
    (js.flatMap Stage.ofJoin ++ rest)[2 * k]? =
      some (.lookup j.collection.name (j.pairs.map (sides j.collection))) := by
  induction js generalizing k with
  | nil => simp at hj
  | cons first js ih =>
    rw [List.flatMap_cons, ofJoin_eq]
    cases k with
    | zero =>
      obtain rfl : first = j := Option.some.inj hj
      rfl
    | succ k => exact ih hj

theorem find_eq_ok {s : Find} {values : List Value} {cmd : Command} :
    render (.find s) values = .ok cmd ↔ ∃ p, Plan.ofEntries rules s.entries values = .ok p ∧
      cmd = .aggregate s.collection.name (Stage.pipeline s.collection p s.projection) := by
  change find s values = .ok cmd ↔ _
  rw [find, Run.outcome_bind_eq_ok]
  exact exists_congr fun p => and_congr_right fun _ =>
    ⟨fun h => (Except.ok.inj h).symm, fun h => congrArg Except.ok h.symm⟩

/-- **Lookups compare the columns of their joins.** In the pipeline of a find the
joins have a lookup each, in the order in which they are met. For an equality
with one side in the joined collection it takes the columns that SQL compares: the
one of that side, as a field of the joined documents, and the other one at its
plain name. This is the path of the other column if it belongs to the base
collection, and only then. -/
theorem find_lookups {s : Find} {values : List Value} {cmd : Command}
    (h : render (.find s) values = .ok cmd) :
    ∃ stages : List Json,
      cmd.toJson = .object [("operation", .string "aggregate"),
        ("collection", .string s.collection.name), ("pipeline", .array stages)] ∧
      ∀ k j, (Entry.partsAll s.entries).joins[k]? = some j →
        ∃ l : Lookup, stages[2 * k]? = some (.object [("$lookup", l.toJson)]) ∧
          l.collection = j.collection.name ∧ (l.bindings.map Prod.fst).Nodup ∧
          l.equalities.length = j.pairs.length ∧
          ∀ i pair foreign other column, j.pairs[i]? = some pair →
            pair.Across j.collection foreign other column →
              (∀ d, Sql.Compares d j (j.collection, foreign) (other, column)) ∧
                l.Compares i foreign column ∧
                (l.Compares i foreign (localPath s.collection other column) ↔
                  other = s.collection) := by
  obtain ⟨p, hp, rfl⟩ := find_eq_ok.1 h
  refine ⟨(Stage.pipeline s.collection p s.projection).map Stage.toJson, rfl, fun k j hj => ?_⟩
  rw [← (Plan.hasParts_of_ofEntries hp).joins] at hj
  refine ⟨.ofPairs j.collection.name (j.pairs.map (sides j.collection)), ?_, rfl,
    Lookup.nodup_bindings _ _, ?_, fun i pair foreign other column hpair hacross => ?_⟩
  · have hstage : (Stage.pipeline s.collection p s.projection)[2 * k]? =
        some (.lookup j.collection.name (j.pairs.map (sides j.collection))) := by
      rw [Stage.pipeline, List.append_assoc, List.append_assoc, List.append_assoc]
      exact getElem?_flatMap_ofJoin hj
    rw [List.getElem?_map, hstage, Option.map_some, Stage.toJson, Lookup.toJson_ofPairs]
  · rw [Lookup.ofPairs, List.length_mapIdx, List.length_map]
  · have hsides : (j.pairs.map (sides j.collection))[i]? = some (column, foreign) := by
      rw [List.getElem?_map, hpair, Option.map_some, sides_of_across hacross]
    exact ⟨fun d => Sql.compares_of_across d hpair hacross,
      (Lookup.compares_ofPairs_iff hsides).2 rfl,
      (Lookup.compares_ofPairs_iff hsides).trans localPath_eq_iff⟩

end Join

/-- A find that joins the orders of users, and then the items of the orders. -/
def ordered : Find := ⟨⟨⟨"shop", "users"⟩,
  [.join ⟨⟨"shop", "orders"⟩, .inner,
      [⟨⟨"shop", "users"⟩, "id", some ⟨"shop", "orders"⟩, "user_id"⟩]⟩,
    .operation .and [.join ⟨⟨"shop", "items"⟩, .inner,
      [⟨⟨"shop", "orders"⟩, "id", some ⟨"shop", "items"⟩, "order_id"⟩]⟩]]⟩, []⟩

theorem across_ordered : JoinPair.Across ⟨"shop", "items"⟩
    ⟨⟨"shop", "orders"⟩, "id", some ⟨"shop", "items"⟩, "order_id"⟩ "order_id" ⟨"shop", "orders"⟩
    "id" := .right (by decide)

theorem find_ordered_lookups : ∃ (cmd : Command) (stages : List Json) (l l' : Lookup),
    render (.find ordered) [] = .ok cmd ∧
      cmd.toJson = .object [("operation", .string "aggregate"), ("collection", .string "users"),
        ("pipeline", .array stages)] ∧
      stages[0]? = some (.object [("$lookup", l.toJson)]) ∧
      l.Compares 0 "user_id" (localPath ⟨"shop", "users"⟩ ⟨"shop", "users"⟩ "id") ∧
      stages[2]? = some (.object [("$lookup", l'.toJson)]) ∧ l'.Compares 0 "order_id" "id" := by
  have hc : render (.find ordered) [] = .ok _ := rfl
  obtain ⟨stages, hstages, hlookups⟩ := find_lookups hc
  obtain ⟨l, hl, -, -, -, hcompares⟩ := hlookups 0 _ rfl
  obtain ⟨l', hl', -, -, -, hcompares'⟩ := hlookups 1 _ rfl
  have horders :=
    (hcompares 0 _ "user_id" ⟨"shop", "users"⟩ "id" rfl (.right (by decide))).2.2.2 rfl
  have hitems := (hcompares' 0 _ _ _ _ rfl across_ordered).2.1
  exact ⟨_, stages, l, l', hc, hstages, hl, horders, hl', hitems⟩

/-- **A second join looks for the column in the wrong place.** The orders were
joined before, and so their column is at `orders.id`. -/
theorem find_ordered_not_localPath : ∃ (cmd : Command) (stages : List Json) (l : Lookup),
    render (.find ordered) [] = .ok cmd ∧
      cmd.toJson = .object [("operation", .string "aggregate"), ("collection", .string "users"),
        ("pipeline", .array stages)] ∧
      stages[2]? = some (.object [("$lookup", l.toJson)]) ∧
      (Entry.partsAll ordered.entries).joins.map (·.collection) =
        [⟨"shop", "orders"⟩, ⟨"shop", "items"⟩] ∧
      JoinPair.Across ⟨"shop", "items"⟩
        ⟨⟨"shop", "orders"⟩, "id", some ⟨"shop", "items"⟩, "order_id"⟩ "order_id"
        ⟨"shop", "orders"⟩ "id" ∧
      localPath ordered.collection ⟨"shop", "orders"⟩ "id" = "orders.id" ∧
      ¬ l.Compares 0 "order_id" "orders.id" := by
  refine ⟨_, _, .ofPairs "items" [("id", "order_id")], rfl, rfl, rfl, rfl, across_ordered,
    by decide, ?_⟩
  have hiff : (Lookup.ofPairs "items" [("id", "order_id")]).Compares 0 "order_id" "orders.id" ↔
      "orders.id" = "id" := Lookup.compares_ofPairs_iff rfl
  exact fun h => absurd (hiff.1 h) (by decide)

end Document

end QueryLayer
