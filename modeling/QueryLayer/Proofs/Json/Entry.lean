import QueryLayer.Json.Entry
import QueryLayer.Proofs.Json.Shape

/-!
# Values and entries read back

Reading undoes writing on every entry whose literals are plain
(`Entry.readNested_toJson`). A plain value is built of null, truth values,
integers, texts and lists: a float need not find its digits again, and bytes
come back as a list of integers.

The reader of entries takes the depth that is left as fuel, and the entries
inside an operation are less deep than the operation. So the induction is on
the fuel, and its step is one lemma for each kind of entry.
-/

namespace QueryLayer

open Json

/-! ## Plain values -/

namespace Value

/-- The value is built of null, truth values, integers, texts and lists. -/
inductive IsPlain : Value → Prop
  | null : IsPlain .null
  | bool (b : Bool) : IsPlain (.bool b)
  | int (n : Int64) : IsPlain (.int n)
  | text (s : String) : IsPlain (.text s)
  | list {vs : List Value} : (∀ v ∈ vs, IsPlain v) → IsPlain (.list vs)

attribute [simp] IsPlain.null IsPlain.bool IsPlain.int IsPlain.text

@[simp] theorem isPlain_list {vs : List Value} : (list vs).IsPlain ↔ ∀ v ∈ vs, v.IsPlain := by
  constructor
  · rintro ⟨⟩
    assumption
  · exact .list

theorem toJsonAll_eq_map (vs : List Value) : toJsonAll vs = vs.map toJson := by
  induction vs with
  | nil => rfl
  | cons v vs ih => rw [toJsonAll, ih, List.map_cons]

theorem ofJsonAll_eq_mapM (js : List Json) : ofJsonAll js = js.mapM ofJson := by
  induction js with
  | nil => rfl
  | cons j js ih => rw [ofJsonAll, ih, List.mapM_cons]

/-- An integer of 64 signed bits stays one. -/
theorem ofInt_toInt (n : Int64) : ofInt n.toInt = .int n := by
  rw [ofInt, if_pos ⟨n.minValue_le_toInt, n.toInt_le⟩, Int64.ofInt_toInt]

variable {v : Value}

/-- **A plain value reads back.** -/
theorem IsPlain.ofJson_toJson (h : v.IsPlain) : ofJson v.toJson = some v := by
  induction h with
  | null | bool | text => rfl
  | int n => rw [toJson, ofJson, ofInt_toInt]
  | @list vs _ ih =>
    rw [toJson, toJsonAll_eq_map, ofJson, ofJsonAll_eq_mapM, mapM_map_eq_some ih, List.map_id']
    rfl

/-- A plain value has an exact JSON. -/
theorem IsPlain.isExact_toJson (h : v.IsPlain) : v.toJson.IsExact := by
  induction h with
  | null | bool | text => simp [toJson]
  | int n =>
    have hhigh : Int64.maxValue.toInt ≤ (Numeral.maxSignificand : Int) := by decide
    exact isExact_int n.minValue_le_toInt (Int.le_trans n.toInt_le hhigh)
  | @list vs _ ih =>
    rw [toJson, toJsonAll_eq_map, isExact_array]
    intro j hj
    obtain ⟨v, hv, rfl⟩ := List.mem_map.1 hj
    exact ih v hv

end Value

/-! ## Operands -/

namespace Operand

/-- The value that an operand brings with it. -/
def literals : Operand → List Value
  | .literal v => [v]
  | .prepared => []

variable {o : Operand}

theorem ofJson_toJson (h : ∀ v ∈ o.literals, v.IsPlain) (inner : Bool) :
    ofJson inner o.toJson = some o := by
  cases o with
  | literal v =>
    have hv : v.IsPlain := h v (by simp [literals])
    simp [toJson, ofJson, hv.ofJson_toJson]
  | prepared => rfl

theorem isExact_toJson (h : ∀ v ∈ o.literals, v.IsPlain) : o.toJson.IsExact := by
  cases o with
  | literal v =>
    have hv : v.IsPlain := h v (by simp [literals])
    simp [toJson, hv.isExact_toJson]
  | prepared => simp [toJson]

theorem toJson_ne_null (o : Operand) : o.toJson ≠ .null := by
  cases o <;> simp [toJson]

theorem optional_toJson {o : Option Operand} (h : ∀ a ∈ o, ∀ v ∈ a.literals, v.IsPlain)
    (inner : Bool) : optional (ofJson inner) (o.map toJson) = some o :=
  optional_map (fun a ha => ofJson_toJson (h a ha) inner) (fun a _ => a.toJson_ne_null)

end Operand

/-! ## Names and references -/

@[simp] theorem Aggregation.optional_toJson (a : Option Aggregation) (inner : Bool) :
    optional (Aggregation.ofJson inner) (a.map Aggregation.toJson) = some a :=
  optional_map (fun a _ => by cases a <;> rfl) (fun a _ => by simp [Aggregation.toJson])

@[simp] theorem ConditionKind.plainVariant_name (k : ConditionKind) (inner : Bool) :
    plainVariant ConditionKind.all ConditionKind.name inner (.string k.name) = some k := by
  cases k <;> rfl

@[simp] theorem OperationKind.plainVariant_name (k : OperationKind) (inner : Bool) :
    plainVariant OperationKind.all OperationKind.name inner (.string k.name) = some k := by
  cases k <;> rfl

@[simp] theorem JoinType.plainVariant_name (t : JoinType) (inner : Bool) :
    plainVariant JoinType.all JoinType.name inner (.string t.name) = some t := by
  cases t <;> rfl

@[simp] theorem SortOrder.plainVariant_name (o : SortOrder) (inner : Bool) :
    plainVariant SortOrder.all SortOrder.name inner (.string o.name) = some o := by
  cases o <;> rfl

@[simp] theorem Arithmetic.optional_name (a : Option Arithmetic) (inner : Bool) :
    optional (plainVariant Arithmetic.all Arithmetic.name inner) (a.map (.string ·.name)) =
      some a :=
  optional_map (fun a _ => by cases a <;> rfl) (fun _ _ => by simp)

@[simp] theorem FieldRef.ofJson_toJson (f : FieldRef) : ofJson f.toJson = some f := by
  have hfields : recordFields ["database", "collection", "field"] f.toJson =
      some [f.database.map .string, f.collection.map .string, some (.string f.field)] :=
    recordFields_record (by simp)
  simp [ofJson, hfields]

@[simp] theorem FieldRef.isExact_toJson (f : FieldRef) : f.toJson.IsExact := by
  simp [toJson]

@[simp] theorem CollectionRef.ofJson_toJson (c : CollectionRef) : ofJson c.toJson = some c := by
  have hfields : recordFields ["database", "name"] c.toJson =
      some [some (.string c.database), some (.string c.name)] :=
    recordFields_record (by simp)
  simp [ofJson, hfields]

@[simp] theorem CollectionRef.isExact_toJson (c : CollectionRef) : c.toJson.IsExact := by
  simp [toJson]

@[simp] theorem CollectionRef.optional_toJson (c : Option CollectionRef) :
    optional ofJson (c.map toJson) = some c :=
  optional_map (fun c _ => c.ofJson_toJson) (fun c _ => by simp [toJson, record])

@[simp] theorem JoinPair.ofJson_toJson (p : JoinPair) : ofJson p.toJson = some p := by
  have hfields : recordFields ["collection1", "column1", "collection2", "column2"] p.toJson =
      some [some p.collection1.toJson, some (.string p.column1),
        p.collection2.map CollectionRef.toJson, some (.string p.column2)] :=
    recordFields_record (by simp)
  simp [ofJson, hfields]

@[simp] theorem JoinPair.isExact_toJson (p : JoinPair) : p.toJson.IsExact := by
  simp [toJson]

@[simp] theorem Projection.ofJson_toJson (p : Projection) (inner : Bool) :
    ofJson inner p.toJson = some p := by
  have hfields : recordFields ["field", "aggregation", "alias"] p.toJson =
      some [some p.target.field.toJson, p.target.aggregation.map Aggregation.toJson,
        p.label.map .string] :=
    recordFields_record (by simp)
  simp [ofJson, hfields]

@[simp] theorem Projection.isExact_toJson (p : Projection) : p.toJson.IsExact := by
  simp [toJson, Aggregation.toJson]

/-! ## Entries -/

namespace Entry

mutual

/-- The values that an entry brings with it, those of nested entries included. -/
def literals : Entry → List Value
  | .condition c => c.value.literals ++ c.upperBound.toList.flatMap Operand.literals
  | .operation _ es => literalsAll es
  | .set a => a.value.literals
  | .join _ | .limit _ | .orderBy _ | .groupBy _ => []

/-- The values that several entries bring with them. -/
def literalsAll : List Entry → List Value
  | [] => []
  | e :: es => literals e ++ literalsAll es

end

theorem literalsAll_eq_flatMap (es : List Entry) : literalsAll es = es.flatMap literals := by
  induction es with
  | nil => rfl
  | cons e es ih => rw [literalsAll, ih, List.flatMap_cons]

theorem toJsonAll_eq_map (es : List Entry) : toJsonAll es = es.map toJson := by
  induction es with
  | nil => rfl
  | cons e es ih => rw [toJsonAll, ih, List.map_cons]

/-- The fields of an entry beside its kind. -/
def members : Entry → List (String × Option Json)
  | .condition c =>
    [("kind", some (.string c.kind.name)), ("field", some c.target.field.toJson),
      ("value", some c.value.toJson),
      ("aggregation", c.target.aggregation.map Aggregation.toJson),
      ("upper_bound", c.upperBound.map Operand.toJson)]
  | .operation kind es =>
    [("kind", some (.string kind.name)), ("entries", some (.array (es.map toJson)))]
  | .join j =>
    [("collection", some j.collection.toJson), ("join_type", some (.string j.joinType.name)),
      ("on", some (.array (j.pairs.map JoinPair.toJson)))]
  | .limit w => [("limit", some (rowsJson w.limit)), ("offset", some (rowsJson w.offset))]
  | .orderBy k =>
    [("field", some k.target.field.toJson), ("order", some (.string k.order.name)),
      ("aggregation", k.target.aggregation.map Aggregation.toJson)]
  | .groupBy t =>
    [("field", some t.field.toJson), ("aggregation", t.aggregation.map Aggregation.toJson)]
  | .set a =>
    [("field", some a.field.toJson), ("value", some a.value.toJson),
      ("operator", a.operator.map (.string ·.name))]

/-- An entry is written as its kind and its fields. -/
theorem toJson_eq_record (e : Entry) :
    e.toJson = record (("type", some (.string e.kind)) :: e.members) := by
  cases e <;> simp [toJson, members, kind, toJsonAll_eq_map]

theorem isExact_rowsJson (n : UInt64) : (rowsJson n).IsExact := by
  have hlow : Int64.minValue.toInt ≤ 0 := by decide
  have hhigh : n.toNat ≤ Numeral.maxSignificand := Nat.le_of_lt_succ n.toNat_lt
  exact isExact_int (by omega) (by omega)

theorem asBounded_rowsJson (n : UInt64) : asBounded maxRows (rowsJson n) = some n.toNat := by
  have hhigh : n.toNat ≤ maxRows := Nat.le_of_lt_succ n.toNat_lt
  simp [asBounded, rowsJson, hhigh]

mutual

/-- **An entry with plain literals has an exact JSON.** -/
theorem isExact_toJson : ∀ {e : Entry}, (∀ v ∈ e.literals, v.IsPlain) → e.toJson.IsExact
  | .condition c, h => by
    rw [literals, List.forall_mem_append, List.forall_mem_flatMap] at h
    have hvalue := Operand.isExact_toJson h.1
    have hbound : ∀ o ∈ c.upperBound, o.toJson.IsExact := fun o ho =>
      Operand.isExact_toJson (h.2 o (Option.mem_toList.2 ho))
    simpa [toJson, Aggregation.toJson, hvalue] using hbound
  | .operation kind es, h => by
    have hes := isExact_toJsonAll h
    simpa [toJson] using hes
  | .join j, _ => by simp [toJson]
  | .limit w, _ => by simp [toJson, isExact_rowsJson]
  | .orderBy k, _ => by simp [toJson, Aggregation.toJson]
  | .groupBy t, _ => by simp [toJson, Aggregation.toJson]
  | .set a, h => by
    have hvalue := Operand.isExact_toJson h
    simp [toJson, hvalue]

theorem isExact_toJsonAll : ∀ {es : List Entry}, (∀ v ∈ literalsAll es, v.IsPlain) →
    ∀ j ∈ toJsonAll es, j.IsExact
  | [], _ => by simp [toJsonAll]
  | e :: es, h => by
    rw [literalsAll, List.forall_mem_append] at h
    rw [toJsonAll, List.forall_mem_cons]
    exact ⟨isExact_toJson h.1, isExact_toJsonAll h.2⟩

end

/-- The kind of an entry is found beside its fields. -/
theorem taggedVariant_toJson {e : Entry} (h : ∀ v ∈ e.literals, v.IsPlain) (inner : Bool) :
    taggedVariant inner "type" kinds e.toJson = some (e.kind, record e.members) := by
  have hsound : e.toJson.isSound = true := (isExact_toJson h).isSound
  rw [toJson_eq_record] at hsound ⊢
  refine taggedVariant_record hsound ?_ ?_ inner
  · cases e <;> simp [kind, kinds]
  · cases e <;> simp [members]

/-! ### One kind of entry -/

theorem conditionOf_members {c : Condition} (h : ∀ v ∈ (condition c).literals, v.IsPlain) :
    conditionOf (record (condition c).members) = some (.condition c) := by
  rw [literals, List.forall_mem_append, List.forall_mem_flatMap] at h
  have hvalue := Operand.ofJson_toJson h.1 true
  have hbound : optional (Operand.ofJson true) (c.upperBound.map Operand.toJson) =
      some c.upperBound :=
    Operand.optional_toJson (fun o ho => h.2 o (Option.mem_toList.2 ho)) true
  have hfields : recordFields ["kind", "field", "value", "aggregation", "upper_bound"]
      (record (condition c).members) =
      some [some (.string c.kind.name), some c.target.field.toJson, some c.value.toJson,
        c.target.aggregation.map Aggregation.toJson, c.upperBound.map Operand.toJson] :=
    recordFields_record (by simp [members])
  simp [conditionOf, hfields, hvalue, hbound]

theorem operationOf_members {read : Json → Option Entry} {kind : OperationKind} {es : List Entry}
    (hread : ∀ e ∈ es, read e.toJson = some e) :
    operationOf read (record (operation kind es).members) = some (.operation kind es) := by
  have hentries : items read (.array (es.map toJson)) = some es := items_map hread
  have hfields : recordFields ["kind", "entries"] (record (operation kind es).members) =
      some [some (.string kind.name), some (.array (es.map toJson))] :=
    recordFields_record (by simp [members])
  simp [operationOf, hfields, hentries]

theorem joinOf_members (j : Join) : joinOf (record (join j).members) = some (.join j) := by
  have hpairs : items JoinPair.ofJson (.array (j.pairs.map JoinPair.toJson)) = some j.pairs :=
    items_map fun p _ => p.ofJson_toJson
  have hfields : recordFields ["collection", "join_type", "on"] (record (join j).members) =
      some [some j.collection.toJson, some (.string j.joinType.name),
        some (.array (j.pairs.map JoinPair.toJson))] :=
    recordFields_record (by simp [members])
  simp [joinOf, hfields, hpairs]

theorem limitOf_members (w : Window) : limitOf (record (limit w).members) = some (.limit w) := by
  have hfields : recordFields ["limit", "offset"] (record (limit w).members) =
      some [some (rowsJson w.limit), some (rowsJson w.offset)] :=
    recordFields_record (by simp [members])
  simp [limitOf, hfields, asBounded_rowsJson, Window.ofNats]

theorem orderByOf_members (k : SortKey) :
    orderByOf (record (orderBy k).members) = some (.orderBy k) := by
  have hfields : recordFields ["field", "order", "aggregation"] (record (orderBy k).members) =
      some [some k.target.field.toJson, some (.string k.order.name),
        k.target.aggregation.map Aggregation.toJson] :=
    recordFields_record (by simp [members])
  simp [orderByOf, hfields]

theorem groupByOf_members (t : Target) :
    groupByOf (record (groupBy t).members) = some (.groupBy t) := by
  have hfields : recordFields ["field", "aggregation"] (record (groupBy t).members) =
      some [some t.field.toJson, t.aggregation.map Aggregation.toJson] :=
    recordFields_record (by simp [members])
  simp [groupByOf, hfields]

theorem setOf_members {a : Assignment} (h : ∀ v ∈ (set a).literals, v.IsPlain) :
    setOf (record (set a).members) = some (.set a) := by
  have hvalue := Operand.ofJson_toJson h true
  have hfields : recordFields ["field", "value", "operator"] (record (set a).members) =
      some [some a.field.toJson, some a.value.toJson, a.operator.map (.string ·.name)] :=
    recordFields_record (by simp [members])
  simp [setOf, hfields, hvalue]

/-! ### Nested entries -/

/-- The entries inside an operation are less deep than the operation. -/
theorem depth_lt_depth_operation {kind : OperationKind} {e : Entry} {es : List Entry}
    (he : e ∈ es) :
    e.toJson.depth < (operation kind es).toJson.depth := by
  have hitem : e.toJson.depth < (Json.array (es.map toJson)).depth :=
    depth_lt_depth_array (List.mem_map_of_mem he)
  have hfield : (Json.array (es.map toJson)).depth < (operation kind es).toJson.depth := by
    rw [toJson_eq_record]
    exact depth_lt_depth_record (k := "entries") (by simp [members])
  omega

/-- **An entry with plain literals reads back**, given fuel for its depth. -/
theorem readNested_toJson (fuel : Nat) : ∀ {e : Entry}, (∀ v ∈ e.literals, v.IsPlain) →
    e.toJson.depth ≤ fuel → ∀ inner, readNested fuel inner e.toJson = some e := by
  induction fuel with
  | zero =>
    -- an entry is an object and so not of depth zero
    intro e _ hfuel
    rw [toJson_eq_record, record, depth] at hfuel
    omega
  | succ fuel ih =>
    intro e h hfuel inner
    rw [readNested, taggedVariant_toJson h]
    cases e with
    | condition c => exact conditionOf_members h
    | operation kind es =>
      rw [literals, literalsAll_eq_flatMap, List.forall_mem_flatMap] at h
      refine operationOf_members fun e he => ?_
      have hdepth : e.toJson.depth < (operation kind es).toJson.depth := depth_lt_depth_operation he
      exact ih (h e he) (by omega) true
    | join j => exact joinOf_members j
    | limit w => exact limitOf_members w
    | orderBy k => exact orderByOf_members k
    | groupBy t => exact groupByOf_members t
    | set a => exact setOf_members h

/-- Entries with plain literals read back. -/
theorem ofJson_toJson {e : Entry} (h : ∀ v ∈ e.literals, v.IsPlain) (inner : Bool) :
    ofJson inner e.toJson = some e :=
  readNested_toJson _ h (Nat.le_refl _) inner

end Entry

end QueryLayer
