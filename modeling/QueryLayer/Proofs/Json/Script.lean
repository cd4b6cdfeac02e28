import QueryLayer.Script
import QueryLayer.Proofs.Json.Entry

/-!
# Scripts read back

Reading undoes writing on statements with plain literals, kind by kind
(`Statement.ofJson_toJson`), and so on steps. Together with the law of the
compact text this gives the law of scripts (`parse_write`): a script of such
steps whose containers nest no deeper than the limit of the reader is read
back as it was.
-/

namespace QueryLayer

open Json

/-! ## The literals of statements -/

/-- The value that a line of a create statement brings with it. -/
def Definition.literals : Definition → List Value
  | .column c => c.default.toList
  | .foreignKey _ _ => []

/-- The values that a search brings with it. -/
def Search.literals (s : Search) : List Value := s.entries.flatMap Entry.literals

/-- The values that an inserted column brings with it. -/
def InsertColumn.literals (c : InsertColumn) : List Value := c.values.flatMap Operand.literals

/-- The values that a statement brings with it. The values of its markers are
not among them. -/
def Statement.literals : Statement → List Value
  | .find s => s.literals
  | .insert s => s.columns.flatMap InsertColumn.literals
  | .update s | .delete s | .replace s | .count s => s.literals
  | .create s =>
    s.definitions.flatMap Definition.literals ++ s.included.toList.flatMap (·.toSearch.literals)
  | .drop _ | .clear _ => []

/-! ## Searches -/

namespace Search

variable {s : Search}

theorem items_entries (h : ∀ v ∈ s.literals, v.IsPlain) :
    items (Entry.ofJson true) (.array (s.entries.map Entry.toJson)) = some s.entries := by
  rw [literals, List.forall_mem_flatMap] at h
  exact items_map fun e he => Entry.ofJson_toJson (h e he) true

theorem isExact_entries (h : ∀ v ∈ s.literals, v.IsPlain) :
    (Json.array (s.entries.map Entry.toJson)).IsExact := by
  rw [literals, List.forall_mem_flatMap] at h
  rw [isExact_array, List.forall_mem_map]
  exact fun e he => Entry.isExact_toJson (h e he)

theorem ofJson_members (h : ∀ v ∈ s.literals, v.IsPlain) : ofJson (record s.members) = some s := by
  have hentries := items_entries h
  have hfields : recordFields ["collection", "entries"] (record s.members) =
      some [some s.collection.toJson, some (.array (s.entries.map Entry.toJson))] :=
    recordFields_record (by simp [members])
  simp [ofJson, hfields, hentries]

theorem isExact_members (h : ∀ v ∈ s.literals, v.IsPlain) : (record s.members).IsExact := by
  have hentries := isExact_entries h
  simpa [members] using hentries

end Search

namespace Find

variable {s : Find}

theorem ofJson_members (h : ∀ v ∈ s.literals, v.IsPlain) : ofJson (record s.members) = some s := by
  have hentries := Search.items_entries h
  have hprojection : items (Projection.ofJson true) (.array (s.projection.map Projection.toJson)) =
      some s.projection :=
    items_map fun p _ => p.ofJson_toJson true
  have hfields : recordFields ["collection", "projection", "entries"] (record s.members) =
      some [some s.collection.toJson, some (.array (s.projection.map Projection.toJson)),
        some (.array (s.entries.map Entry.toJson))] :=
    recordFields_record (by simp [members])
  simp [ofJson, hfields, hprojection, hentries]

theorem isExact_members (h : ∀ v ∈ s.literals, v.IsPlain) : (record s.members).IsExact := by
  have hentries := Search.isExact_entries h
  simpa [members] using hentries

end Find

/-! ## Inserts -/

namespace InsertColumn

variable {c : InsertColumn}

theorem ofJson_toJson (h : ∀ v ∈ c.literals, v.IsPlain) (inner : Bool) :
    ofJson inner c.toJson = some c := by
  rw [literals, List.forall_mem_flatMap] at h
  have hvalues : items (Operand.ofJson inner) (.array (c.values.map Operand.toJson)) =
      some c.values :=
    items_map fun o ho => Operand.ofJson_toJson (h o ho) inner
  have hfields : recordFields ["field", "values"] c.toJson =
      some [some (.string c.field), some (.array (c.values.map Operand.toJson))] :=
    recordFields_record (by simp)
  simp [ofJson, hfields, hvalues]

theorem isExact_toJson (h : ∀ v ∈ c.literals, v.IsPlain) : c.toJson.IsExact := by
  rw [literals, List.forall_mem_flatMap] at h
  have hvalues : ∀ o ∈ c.values, o.toJson.IsExact := fun o ho => Operand.isExact_toJson (h o ho)
  simpa [toJson] using hvalues

end InsertColumn

namespace Insert

variable {s : Insert}

theorem ofJson_members (h : ∀ v ∈ s.columns.flatMap InsertColumn.literals, v.IsPlain) :
    ofJson (record s.members) = some s := by
  rw [List.forall_mem_flatMap] at h
  have hcolumns : items (InsertColumn.ofJson true) (.array (s.columns.map InsertColumn.toJson)) =
      some s.columns :=
    items_map fun c hc => InsertColumn.ofJson_toJson (h c hc) true
  have hfields : recordFields ["collection", "entries"] (record s.members) =
      some [some s.collection.toJson, some (.array (s.columns.map InsertColumn.toJson))] :=
    recordFields_record (by simp [members])
  simp [ofJson, hfields, hcolumns]

theorem isExact_members (h : ∀ v ∈ s.columns.flatMap InsertColumn.literals, v.IsPlain) :
    (record s.members).IsExact := by
  rw [List.forall_mem_flatMap] at h
  have hcolumns : ∀ c ∈ s.columns, c.toJson.IsExact := fun c hc =>
    InsertColumn.isExact_toJson (h c hc)
  simpa [members] using hcolumns

end Insert

/-! ## Statements -/

theorem DropTarget.ofJson_toJson (t : DropTarget) : ofJson t.toJson = some t := by
  cases t <;> simp [toJson, ofJson]

theorem DropTarget.isExact_toJson (t : DropTarget) : t.toJson.IsExact := by
  cases t <;> simp [toJson]

namespace Statement

variable {s : Statement}

theorem dropOf_members (t : DropTarget) : dropOf (record (drop t).members) = some (.drop t) := by
  have hfields : recordFields ["target"] (record (drop t).members) = some [some t.toJson] :=
    recordFields_record (by simp [members])
  simp [dropOf, hfields, t.ofJson_toJson]

theorem clearOf_members (c : CollectionRef) :
    clearOf (record (clear c).members) = some (.clear c) := by
  have hfields : recordFields ["collection"] (record (clear c).members) = some [some c.toJson] :=
    recordFields_record (by simp [members])
  simp [clearOf, hfields]

theorem isExact_members (hcreate : ∀ c, s ≠ .create c) (h : ∀ v ∈ s.literals, v.IsPlain) :
    (record s.members).IsExact := by
  cases s with
  | find s => exact Find.isExact_members h
  | insert s => exact Insert.isExact_members h
  | update s | delete s | replace s | count s => exact Search.isExact_members h
  | create c => exact absurd rfl (hcreate c)
  | drop t => simpa [members] using t.isExact_toJson
  | clear c => simp [members]

theorem isExact_toJson (hmembers : (record s.members).IsExact) : s.toJson.IsExact := by
  rw [toJson, isExact_record, List.forall_mem_cons]
  exact ⟨by simp, isExact_record.1 hmembers⟩

/-- The kind of a statement is found beside its members. -/
theorem taggedVariant_toJson (hmembers : (record s.members).IsExact) (inner : Bool) :
    taggedVariant inner "kind" kinds s.toJson = some (s.kind, record s.members) := by
  refine taggedVariant_record (isExact_toJson hmembers).isSound ?_ ?_ inner
  · cases s <;> simp [kind, kinds]
  · cases s <;> simp [members, Find.members, Insert.members, Search.members, Create.members]

/-- **A statement with plain literals reads back**, unless it creates a
collection. -/
theorem ofJson_toJson (hcreate : ∀ c, s ≠ .create c) (h : ∀ v ∈ s.literals, v.IsPlain) :
    ofJson s.toJson = some s := by
  rw [ofJson, taggedVariant_toJson (isExact_members hcreate h)]
  cases s with
  | find s => exact congrArg (Option.map find) (Find.ofJson_members h)
  | insert s => exact congrArg (Option.map insert) (Insert.ofJson_members h)
  | update s => exact congrArg (Option.map update) (Search.ofJson_members h)
  | delete s => exact congrArg (Option.map delete) (Search.ofJson_members h)
  | replace s => exact congrArg (Option.map replace) (Search.ofJson_members h)
  | create c => exact absurd rfl (hcreate c)
  | drop t => exact dropOf_members t
  | clear c => exact clearOf_members c
  | count s => exact congrArg (Option.map count) (Search.ofJson_members h)

end Statement

/-! ## Scripts -/

namespace Script

namespace Step

variable {s : Step}

theorem ofJson_toJson (hcreate : ∀ c, s.statement ≠ .create c)
    (h : ∀ v ∈ s.statement.literals ++ s.values, v.IsPlain) : ofJson s.toJson = some s := by
  rw [List.forall_mem_append] at h
  have hstatement := Statement.ofJson_toJson hcreate h.1
  have hvalues : items Value.ofJson (.array (s.values.map Value.toJson)) = some s.values :=
    items_map fun v hv => (h.2 v hv).ofJson_toJson
  have hfields : recordFields ["statement", "values"] s.toJson =
      some [some s.statement.toJson, some (.array (s.values.map Value.toJson))] :=
    recordFields_record (by simp : ([("statement", some s.statement.toJson),
      ("values", some (Json.array (s.values.map Value.toJson)))].map (·.1)).Nodup)
  simp [ofJson, hfields, hstatement, hvalues]

theorem isExact_toJson (hcreate : ∀ c, s.statement ≠ .create c)
    (h : ∀ v ∈ s.statement.literals ++ s.values, v.IsPlain) : s.toJson.IsExact := by
  rw [List.forall_mem_append] at h
  have hstatement := Statement.isExact_toJson (Statement.isExact_members hcreate h.1)
  have hvalues : ∀ v ∈ s.values, v.toJson.IsExact := fun v hv => (h.2 v hv).isExact_toJson
  simpa [toJson, hstatement] using hvalues

end Step

/-- **A script survives being written and read.** Its statements are of any
kind but create, its literals and runtime values are plain, and its containers
nest as deep as the reader allows. -/
theorem parse_write {steps : List Step} (hcreate : ∀ s ∈ steps, ∀ c, s.statement ≠ .create c)
    (hplain : ∀ s ∈ steps, ∀ v ∈ s.statement.literals ++ s.values, v.IsPlain)
    (hdepth : (Json.array (steps.map Step.toJson)).depth ≤ depthLimit) :
    parse (write steps) = some steps := by
  have hexact : (Json.array (steps.map Step.toJson)).IsExact := by
    rw [isExact_array, List.forall_mem_map]
    exact fun s hs => Step.isExact_toJson (hcreate s hs) (hplain s hs)
  rw [parse, write, read_compact hexact hdepth, Option.bind_some]
  exact items_map fun s hs => Step.ofJson_toJson (hcreate s hs) (hplain s hs)

/-- A find with nested operations and a range, an insert with marks that must
be escaped, and the removal of a database. -/
def nightlySteps : List Step :=
  [⟨.find ⟨⟨⟨"shop", "orders"⟩,
      [.operation .not [.operation .or
        [.condition ⟨.between, ⟨⟨none, some "orders", "price"⟩, some .avg⟩, .literal (.int (-5)),
            some .prepared⟩,
          .condition ⟨.oneOf, ⟨.plain "state", none⟩,
            .literal (.list [.null, .bool true, .text "open", .list []]), none⟩]],
        .limit ⟨18446744073709551615, 0⟩]⟩,
      [⟨⟨.plain "price", some .sum⟩, some "total"⟩]⟩, [.int 9223372036854775807]⟩,
    ⟨.insert ⟨⟨"shop", "notes"⟩, [⟨"text", [.literal (.text "a\"b\\c\n\x01é😀"), .prepared]⟩]⟩,
      [.text "", .null]⟩,
    ⟨.drop (.database "scratch"), []⟩]

theorem parse_write_nightlySteps : parse (write nightlySteps) = some nightlySteps := by
  refine parse_write ?_ ?_ (by decide)
  · simp [nightlySteps]
  · simp [nightlySteps, Statement.literals, Search.literals, InsertColumn.literals, Entry.literals,
      Entry.literalsAll, Operand.literals, or_imp, forall_and]

end Script

end QueryLayer
