import QueryLayer.Language
import QueryLayer.Proofs.Json.Script

/-!
# Creates read back

A create is written and read like every other statement, but for one field: a
column without a default and a column whose default is null are told apart in a
statement and not in its text, since the reader of an optional field takes null
for a field that is not there. So a create is read back with its null defaults
gone (`Create.settled`), and as it was exactly if it had none
(`create_reads_back`). Its command differs from the one before only in the
columns that lost a default and would have written it.
-/

namespace QueryLayer

open Json

/-! ## What a reader finds -/

namespace Column

/-- The column without a default that is null. -/
def settled (c : Column) : Column :=
  match c.default with
  | some .null => { c with default := none }
  | _ => c

variable {c : Column}

theorem settled_of_null (h : c.default = some .null) : c.settled = { c with default := none } := by
  rw [settled, h]

theorem settled_of_ne_null (h : c.default ≠ some .null) : c.settled = c := by
  unfold settled
  split
  · next heq => exact absurd heq h
  · rfl

theorem settled_eq_self_iff : c.settled = c ↔ c.default ≠ some .null := by
  refine ⟨fun h hnull => ?_, settled_of_ne_null⟩
  rw [settled_of_null hnull, Column.mk.injEq, hnull] at h
  simp at h

/-- Nothing but the default is lost. -/
theorem settled_eq (c : Column) : c.settled = { c with default := c.settled.default } := by
  by_cases h : c.default = some .null
  · rw [settled_of_null h]
  · rw [settled_of_ne_null h]

/-- **The default of a column** is read as that of the settled column. -/
theorem optional_default (h : ∀ v ∈ c.default, v.IsPlain) :
    optional Value.ofJson (c.default.map Value.toJson) = some c.settled.default := by
  by_cases hnull : c.default = some .null
  · rw [settled_of_null hnull, hnull]
    rfl
  · rw [settled_of_ne_null hnull]
    refine optional_map (fun v hv => (h v hv).ofJson_toJson) fun v hv hjson => ?_
    -- only null is written as null
    cases v with
    | null => exact hnull hv
    | float x => exact absurd (h _ hv) (by rintro ⟨⟩)
    | bool | int | text | list | blob => simp [Value.toJson] at hjson

end Column

/-- The line without a default that is null. -/
def Definition.settled : Definition → Definition
  | .column c => .column c.settled
  | .foreignKey field key => .foreignKey field key

/-- The create without defaults that are null. -/
def Create.settled (s : Create) : Create :=
  { s with definitions := s.definitions.map Definition.settled }

theorem Definition.settled_eq_self_iff {d : Definition} :
    d.settled = d ↔ ∀ c, d = .column c → c.default ≠ some .null := by
  cases d with
  | column c => simp [settled, Column.settled_eq_self_iff]
  | foreignKey field key => simp [settled]

theorem Create.settled_eq_self_iff {s : Create} :
    s.settled = s ↔ ∀ c, .column c ∈ s.definitions → c.default ≠ some .null := by
  have hlines : s.settled = s ↔ s.definitions.map Definition.settled = s.definitions.map id := by
    obtain ⟨collection, definitions, engine, included⟩ := s
    simp [settled]
  rw [hlines, List.map_inj_left]
  simp only [id, Definition.settled_eq_self_iff]
  exact ⟨fun h c hc => h _ hc c rfl, fun h d hd c hdc => h c (hdc ▸ hd)⟩

/-! ## Foreign keys -/

namespace ForeignKey

@[simp] theorem optional_name (a : Option ForeignKeyAction) (inner : Bool) :
    optional (actionOf inner) (a.map (.string ·.name)) = some a :=
  optional_map (fun a _ => by cases a <;> rfl) (fun _ _ => by simp)

@[simp] theorem ofJson_toJson (k : ForeignKey) (inner : Bool) : ofJson inner k.toJson = some k := by
  have hfields : recordFields ["collection", "field", "on_delete", "on_update"] k.toJson =
      some [some k.collection.toJson, some (.string k.field),
        k.onDelete.map (.string ·.name), k.onUpdate.map (.string ·.name)] :=
    recordFields_record (by simp)
  simp [ofJson, hfields]

@[simp] theorem isExact_toJson (k : ForeignKey) : k.toJson.IsExact := by
  simp [toJson]

end ForeignKey

/-! ## Columns -/

@[simp] theorem DataType.plainVariant_name (t : DataType) (inner : Bool) :
    plainVariant DataType.all DataType.name inner (.string t.name) = some t := by
  cases t <;> rfl

@[simp] theorem ColumnOption.items_name (os : List ColumnOption) (inner : Bool) :
    items (plainVariant ColumnOption.all ColumnOption.name inner)
      (.array (os.map (.string ·.name))) = some os :=
  items_map fun o _ => by cases o <;> rfl

namespace Definition

/-- The JSON of the size of a column. -/
def sizeJson (n : UInt32) : Json := .int n.toNat

theorem isExact_sizeJson (n : UInt32) : (sizeJson n).IsExact := by
  have hlow : Int64.minValue.toInt ≤ 0 := by decide
  have hsize : n.toNat < UInt32.size := n.toNat_lt
  have hhigh : UInt32.size ≤ Numeral.maxSignificand := by decide
  exact isExact_int (by omega) (by omega)

/-- The size of a column is within the bound of its reader. -/
theorem optional_sizeJson (size : Option UInt32) :
    optional (asBounded maxSize) (size.map sizeJson) = some (size.map UInt32.toNat) := by
  have hmap : size.map sizeJson = (size.map UInt32.toNat).map fun n : Nat => Json.int n := by
    rw [Option.map_map]
    rfl
  rw [hmap]
  refine optional_map (fun n hn => ?_) (fun _ _ => by simp)
  obtain ⟨m, -, rfl⟩ := Option.map_eq_some_iff.1 (Option.mem_def.1 hn)
  have hbound : m.toNat ≤ maxSize := Nat.le_of_lt_succ m.toNat_lt
  simp [asBounded, hbound]

/-- The name of the kind of line. -/
def kind : Definition → String
  | .column _ => "field"
  | .foreignKey _ _ => "foreign_key"

/-- The fields of a line beside its kind. -/
def members : Definition → List (String × Option Json)
  | .column c =>
    [("field", some (.string c.field)), ("data_type", some (.string c.dataType.name)),
      ("size", c.size.map sizeJson), ("default", c.default.map Value.toJson),
      ("options", some (.array (c.options.map (.string ·.name))))]
  | .foreignKey field key => [("field", some (.string field)), ("foreign_key", some key.toJson)]

/-- A line is written as its kind and its fields. -/
theorem toJson_eq_record (d : Definition) :
    d.toJson = record (("type", some (.string d.kind)) :: d.members) := by
  cases d <;> rfl

variable {d : Definition}

/-- A line with a plain default has an exact JSON. -/
theorem isExact_toJson (h : ∀ v ∈ d.literals, v.IsPlain) : d.toJson.IsExact := by
  rw [toJson_eq_record]
  cases d with
  | column c =>
    have hdefault : ∀ v ∈ c.default, v.toJson.IsExact := fun v hv =>
      (h v (Option.mem_toList.2 hv)).isExact_toJson
    simpa [members, isExact_sizeJson] using hdefault
  | foreignKey field key => simp [members]

/-- The kind of a line is found beside its fields. -/
theorem taggedVariant_toJson (h : ∀ v ∈ d.literals, v.IsPlain) (inner : Bool) :
    taggedVariant inner "type" kinds d.toJson = some (d.kind, record d.members) := by
  have hsound : d.toJson.isSound = true := (isExact_toJson h).isSound
  rw [toJson_eq_record] at hsound ⊢
  refine taggedVariant_record hsound ?_ ?_ inner
  · cases d <;> simp [kind, kinds]
  · cases d <;> simp [members]

theorem columnOf_members {c : Column} (h : ∀ v ∈ c.default, v.IsPlain) :
    columnOf (record (column c).members) = some (.column c.settled) := by
  have hdefault := Column.optional_default h
  have hfields : recordFields ["field", "data_type", "size", "default", "options"]
      (record (column c).members) =
      some [some (.string c.field), some (.string c.dataType.name), c.size.map sizeJson,
        c.default.map Value.toJson, some (.array (c.options.map (.string ·.name)))] :=
    recordFields_record (by simp [members])
  have hsize : (c.size.map UInt32.toNat).map Nat.toUInt32 = c.size := by
    cases c.size <;> simp
  rw [c.settled_eq]
  simp [columnOf, hfields, hdefault, optional_sizeJson, hsize]

theorem foreignKeyOf_members (field : String) (key : ForeignKey) :
    foreignKeyOf (record (foreignKey field key).members) = some (.foreignKey field key) := by
  have hfields : recordFields ["field", "foreign_key"] (record (foreignKey field key).members) =
      some [some (.string field), some key.toJson] :=
    recordFields_record (by simp [members])
  simp [foreignKeyOf, hfields]

/-- **A line with a plain default reads back settled.** -/
theorem ofJson_toJson (h : ∀ v ∈ d.literals, v.IsPlain) (inner : Bool) :
    ofJson inner d.toJson = some d.settled := by
  rw [ofJson, taggedVariant_toJson h]
  cases d with
  | column c => exact columnOf_members fun v hv => h v (Option.mem_toList.2 hv)
  | foreignKey field key => exact foreignKeyOf_members field key

end Definition

/-! ## Creates -/

namespace Create

variable {s : Create}

/-- The included search of a create reads back. -/
theorem optional_included (h : ∀ f ∈ s.included, ∀ v ∈ f.literals, v.IsPlain) :
    optional Find.ofJson (s.included.map (record ·.members)) = some s.included :=
  optional_map (fun f hf => Find.ofJson_members (h f hf)) fun f _ => by simp [record]

theorem forall_mem_literals : (∀ v ∈ (Statement.create s).literals, v.IsPlain) ↔
    (∀ d ∈ s.definitions, ∀ v ∈ d.literals, v.IsPlain) ∧
      ∀ f ∈ s.included, ∀ v ∈ f.literals, v.IsPlain := by
  simp only [Statement.literals, List.forall_mem_append, List.forall_mem_flatMap,
    Option.mem_toList, Option.mem_def]

/-- **A create with plain literals reads back settled.** -/
theorem ofJson_members (h : ∀ v ∈ (Statement.create s).literals, v.IsPlain) :
    ofJson (record s.members) = some s.settled := by
  rw [forall_mem_literals] at h
  have hdefinitions : items (Definition.ofJson true)
      (.array (s.definitions.map Definition.toJson)) = some (s.definitions.map .settled) := by
    rw [items]
    exact mapM_map_eq_some fun d hd => Definition.ofJson_toJson (h.1 d hd) true
  have hincluded := optional_included h.2
  have hfields : recordFields ["collection", "entries", "engine", "include"] (record s.members) =
      some [some s.collection.toJson, some (.array (s.definitions.map Definition.toJson)),
        s.engine.map .string, s.included.map (record ·.members)] :=
    recordFields_record (by simp [members])
  simp [ofJson, hfields, hdefinitions, hincluded, settled]

theorem isExact_members (h : ∀ v ∈ (Statement.create s).literals, v.IsPlain) :
    (record s.members).IsExact := by
  rw [forall_mem_literals] at h
  have hdefinitions : ∀ d ∈ s.definitions, d.toJson.IsExact := fun d hd =>
    Definition.isExact_toJson (h.1 d hd)
  have hincluded : ∀ f ∈ s.included, (record f.members).IsExact := fun f hf =>
    Find.isExact_members (h.2 f hf)
  have hmembers := And.intro hdefinitions hincluded
  simpa [members] using hmembers

end Create

/-! ## Commands -/

namespace Language

/-- Nothing of the default of the column is written in the language. -/
def PassesOverDefault : Language → Column → Prop
  | .sql d, c => Sql.isSerial d c = true
  | .document, _ => True

end Language

theorem Column.isSerial_settled (d : Dialect) (c : Column) :
    Sql.isSerial d c.settled = Sql.isSerial d c := by
  rw [c.settled_eq]
  rfl

/-- Two columns that differ in a default that is not written have one type. -/
theorem Column.columnType_settled {d : Dialect} {c : Column}
    (h : c.default = some .null → Sql.isSerial d c = true) (t : NativeType) :
    Sql.columnType d c.settled t = Sql.columnType d c t := by
  by_cases hnull : c.default = some .null
  · have hserial := h hnull
    have hsettled : Sql.isSerial d c.settled = true := by rw [isSerial_settled, hserial]
    rw [Sql.columnType, Sql.columnType, if_pos hserial, if_pos hsettled, c.settled_eq]
  · rw [settled_of_ne_null hnull]

namespace Definition

variable {x : Definition}

/-- So a line becomes what it was. -/
theorem definition_settled (d : Dialect) (collection : CollectionRef)
    (h : ∀ c, x = .column c → c.default = some .null → Sql.isSerial d c = true) :
    Sql.definition d collection x.settled = Sql.definition d collection x := by
  cases x with
  | foreignKey field key => rfl
  | column c =>
    have htype := Column.columnType_settled (h c rfl)
    have hindexes : Sql.inlineIndexes d collection c.settled = Sql.inlineIndexes d collection c := by
      rw [c.settled_eq]
      rfl
    change Sql.columnDefinition d collection c.settled = Sql.columnDefinition d collection c
    unfold Sql.columnDefinition
    simp only [htype, hindexes]
    rw [c.settled_eq]
    rfl

theorem afterDefinition_settled (d : Dialect) (collection : CollectionRef) (x : Definition) :
    Sql.afterDefinition d collection x.settled = Sql.afterDefinition d collection x := by
  cases x with
  | foreignKey field key => rfl
  | column c =>
    rw [settled, c.settled_eq]
    rfl

/-- The document store has no use for a default. -/
theorem index_settled (collection : CollectionRef) (x : Definition) :
    Document.index collection x.settled = Document.index collection x := by
  cases x with
  | foreignKey field key => rfl
  | column c =>
    rw [settled, c.settled_eq]
    rfl

/-- What is made of the lines is made of the settled lines. -/
theorem mapM_settled {α : Type} {f : Definition → Except QueryError α} (xs : List Definition)
    (h : ∀ x ∈ xs, f x.settled = f x) : (xs.map settled).mapM f = xs.mapM f := by
  induction xs with
  | nil => rfl
  | cons x xs ih =>
    obtain ⟨hx, hxs⟩ := List.forall_mem_cons.1 h
    rw [List.map_cons, List.mapM_cons, List.mapM_cons, hx, ih hxs]

end Definition

namespace Create

variable {s : Create}

theorem collection_settled : s.settled.collection = s.collection := rfl

theorem definitions_settled : s.settled.definitions = s.definitions.map .settled := rfl

/-- A settled create has the command it had, where the defaults that are gone
were not written. -/
theorem compile_settled {l : Language}
    (h : ∀ c, .column c ∈ s.definitions → c.default = some .null → l.PassesOverDefault c)
    (values : List Value) : l.compile (.create s.settled) values = l.compile (.create s) values := by
  cases l with
  | document =>
    have hlines := Definition.mapM_settled s.definitions fun x _ =>
      Definition.index_settled s.collection x
    have hcreate : Document.create s.settled = Document.create s := by
      simp only [Document.create, settled, hlines]
    simp only [Language.compile, Document.render, hcreate]
  | sql d =>
    have hlines := Definition.mapM_settled s.definitions fun x hx =>
      Definition.definition_settled d s.collection fun c hc => h c (hc ▸ hx)
    have hafter : (s.definitions.map .settled).flatMap (Sql.afterDefinition d s.collection) =
        s.definitions.flatMap (Sql.afterDefinition d s.collection) := by
      simp only [List.flatMap_map, Definition.afterDefinition_settled]
    have hincluded : Sql.included d s.settled values = Sql.included d s values := rfl
    have hengine : Sql.engine d s.settled = Sql.engine d s := rfl
    have hcreate : Sql.create d s.settled values = Sql.create d s values := by
      simp only [Sql.create, collection_settled, definitions_settled, List.isEmpty_map, hlines,
        hafter, hincluded, hengine]
    simp only [Language.compile, Sql.render, hcreate]

/-! ## The law -/

/-- The text of a create is read as the settled create. -/
theorem read_compact_create (hplain : ∀ v ∈ (Statement.create s).literals, v.IsPlain)
    (hdepth : (Statement.create s).toJson.depth ≤ depthLimit) :
    (read depthLimit (Statement.create s).toJson.compact).bind Statement.ofJson =
      some (.create s.settled) := by
  have hmembers : (record (Statement.create s).members).IsExact := isExact_members hplain
  rw [read_compact (Statement.isExact_toJson hmembers) hdepth, Option.bind_some, Statement.ofJson,
    Statement.taggedVariant_toJson hmembers]
  exact congrArg (Option.map Statement.create) (ofJson_members hplain)

/-- **A create reads back with its null defaults gone.** Its literals are plain,
and its containers nest as deep as the reader allows. It is as it was exactly
if no column had null for its default; and in a language that writes nothing of
such a default, its command is what it was. -/
theorem create_reads_back {s : Create} (hplain : ∀ v ∈ (Statement.create s).literals, v.IsPlain)
    (hdepth : (Statement.create s).toJson.depth ≤ depthLimit) :
    (read depthLimit (Statement.create s).toJson.compact).bind Statement.ofJson =
        some (.create s.settled) ∧
      (s.settled = s ↔ ∀ c, .column c ∈ s.definitions → c.default ≠ some .null) ∧
      ∀ l : Language,
        (∀ c, .column c ∈ s.definitions → c.default = some .null → l.PassesOverDefault c) →
        ∀ values, l.compile (.create s.settled) values = l.compile (.create s) values :=
  ⟨read_compact_create hplain hdepth, settled_eq_self_iff, fun _ h values => compile_settled h values⟩

/-- A table with a sized key, a list for a default, a foreign key with one of its
two actions, and the rows of a search. -/
def archive : Create where
  collection := ⟨"shop", "archive"⟩
  definitions := [
    .column ⟨"id", .long, some 20, none, [.primaryKey, .autoIncrement]⟩,
    .column ⟨"tags", .document, none, some (.list [.null, .text "a\"b", .int (-1)]), []⟩,
    .column ⟨"state", .string, some 0, some (.bool false), [.notNull, .index]⟩,
    .foreignKey "owner" ⟨⟨"shop", "users"⟩, "id", some .setNull, none⟩]
  engine := some "InnoDB"
  included := some ⟨⟨⟨"shop", "orders"⟩,
    [.condition ⟨.lower, ⟨.plain "age", none⟩, .prepared, none⟩, .limit ⟨5, 0⟩]⟩,
    [⟨⟨.plain "id", none⟩, some "number"⟩]⟩

theorem archive_reads_back :
    (∀ v ∈ (Statement.create archive).literals, v.IsPlain) ∧
      (Statement.create archive).toJson.depth ≤ depthLimit ∧
      (read depthLimit (Statement.create archive).toJson.compact).bind Statement.ofJson =
        some (.create archive) := by
  have hplain : ∀ v ∈ (Statement.create archive).literals, v.IsPlain := by
    simp [archive, Statement.literals, Definition.literals, Search.literals, Entry.literals,
      Operand.literals]
  have hdepth : (Statement.create archive).toJson.depth ≤ depthLimit := by decide
  obtain ⟨hread, hsettled, -⟩ := create_reads_back hplain hdepth
  refine ⟨hplain, hdepth, ?_⟩
  rw [hread, hsettled.2 (by simp [archive])]

/-- A table whose one column has null for its default. -/
def nullable : Create where
  collection := ⟨"shop", "notes"⟩
  definitions := [.column ⟨"stars", .integer, none, some .null, []⟩]
  engine := none
  included := none

/-- The null default is lost, and with it its placeholder. -/
theorem nullable_reads_back_changed :
    (∀ v ∈ (Statement.create nullable).literals, v.IsPlain) ∧
      (Statement.create nullable).toJson.depth ≤ depthLimit ∧
      ∃ s q q', (read depthLimit (Statement.create nullable).toJson.compact).bind Statement.ofJson =
          some (.create s) ∧ s ≠ nullable ∧
        Sql.render .mysql (.create nullable) [] = .ok q ∧
        Sql.render .mysql (.create s) [] = .ok q' ∧
        q.text = "CREATE TABLE IF NOT EXISTS `shop`.`notes`(`stars` INTEGER DEFAULT ?);" ∧
        q'.text = "CREATE TABLE IF NOT EXISTS `shop`.`notes`(`stars` INTEGER);" := by
  have hplain : ∀ v ∈ (Statement.create nullable).literals, v.IsPlain := by
    simp [nullable, Statement.literals, Definition.literals]
  have hdepth : (Statement.create nullable).toJson.depth ≤ depthLimit := by decide
  have hchanged : nullable.settled ≠ nullable := by
    rw [Ne, settled_eq_self_iff]
    simp [nullable]
  have hbefore : Sql.render .mysql (.create nullable) [] = .ok _ := rfl
  have hafter : Sql.render .mysql (.create nullable.settled) [] = .ok _ := rfl
  exact ⟨hplain, hdepth, nullable.settled, _, _, read_compact_create hplain hdepth, hchanged,
    hbefore, hafter, by decide +kernel, by decide +kernel⟩

end Create

end QueryLayer
