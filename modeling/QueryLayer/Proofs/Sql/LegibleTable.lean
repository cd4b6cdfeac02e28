import QueryLayer.Proofs.Decimal.Characters
import QueryLayer.Proofs.Sql.LegibleClause
import QueryLayer.Sql.Table

/-!
# The definition of a table is legible

A definition holds more than names and slots: literals of values, the types of
the dialect and the words by which columns count up. What the dialect brings
along must be readable itself (`Dialect.Readable`), and in every dialect of the
library it is.
-/

namespace QueryLayer

namespace Sql

open Fragment

/-! ## Texts that are clean -/

/-- A character that neither opens or closes a quote nor is a placeholder. -/
def Inert (c : Char) : Prop := c ∉ quoteMarks ∧ c ≠ '?'

theorem clean_ofList {cs : List Char} (hne : cs ≠ []) (hcs : ∀ c ∈ cs, Inert c) :
    (Piece.text (String.ofList cs)).Clean := by
  refine ⟨by simpa using hne, fun c hc => ?_⟩
  rw [String.toList_ofList] at hc
  exact hcs c hc

/-- Characters of letters, digits and points are no quotes. -/
theorem inert_of_inNumber {c : Char} (h : Decimal.InNumber c) : Inert c := by
  rcases h with h | h
  · refine ⟨fun hq => ?_, ?_⟩
    · simp only [quoteMarks, List.mem_cons, List.not_mem_nil, or_false] at hq
      rcases hq with rfl | rfl | rfl | rfl | rfl <;> cases h
    · rintro rfl
      cases h
  · simp only [Decimal.numberMarks, List.mem_cons, List.not_mem_nil, or_false] at h
    rcases h with rfl | rfl | rfl | rfl | rfl | rfl | rfl | rfl | rfl <;>
      exact ⟨by simp [quoteMarks], by decide⟩

/-- A clean text stays so with more inert characters. -/
theorem clean_append {s t : String} (hs : (Piece.text s).Clean) (ht : ∀ c ∈ t.toList, Inert c) :
    (Piece.text (s ++ t)).Clean := by
  refine ⟨by simpa using fun h => absurd h hs.1, fun c hc => ?_⟩
  rw [String.toList_append, List.mem_append] at hc
  rcases hc with hc | hc
  · exact hs.2 c hc
  · exact ht c hc

/-! ## Literals -/

theorem clean_intText (n : Int64) : (Piece.text (String.ofList (Value.intText n))).Clean := by
  have hdigits : ∀ c ∈ Nat.toDigits 10 n.toInt.natAbs, Inert c :=
    fun c hc => inert_of_inNumber (Decimal.inNumber_of_mem_toDigits hc)
  unfold Value.intText
  split
  · refine clean_ofList (by simp) fun c hc => ?_
    rcases List.mem_cons.1 hc with rfl | hc
    · exact inert_of_inNumber (.inr (by simp [Decimal.numberMarks]))
    · exact hdigits c hc
  · exact clean_ofList Nat.toDigits_ne_nil hdigits

mutual

/-- **The literal of every value is legible.** -/
theorem legible_inlineValue : ∀ v : Value, Legible (inlineValue v)
  | .null => legible_singleton (by decide)
  | .bool true => legible_singleton (by decide)
  | .bool false => legible_singleton (by decide)
  | .int n => legible_singleton (clean_intText n)
  | .float x => legible_singleton (clean_ofList (Decimal.NumberFormat.write_ne_nil x)
      fun _ hc => inert_of_inNumber (Decimal.NumberFormat.inNumber_of_mem_write hc))
  | .text s => by
    rw [inlineValue]
    exact legible_singleton trivial
  | .list vs => by
    have hopen : Mark "(" := by decide
    have hclose : Mark ")" := by decide
    rw [inlineValue]
    exact hopen.cons (hclose.between (legible_join (by decide) (legible_inlineValues vs))
      legible_nil)
  | .blob bytes => by
    -- a word and a literal may touch
    have hword : (Piece.text "X").Clean := by decide
    have hedge : (Piece.text "X").rightEdge ≠ .quote := by decide
    rw [inlineValue]
    refine ⟨fun p hp => ?_, .cons_cons (.inr hedge) (.singleton _)⟩
    rcases List.mem_cons.1 hp with rfl | hp
    · exact hword
    · obtain rfl := List.mem_singleton.1 hp
      trivial

/-- The same for several values. -/
theorem legible_inlineValues : ∀ vs : List Value, ∀ f ∈ inlineValues vs, Legible f
  | [], f, hf => by simp [inlineValues] at hf
  | v :: vs, f, hf => by
    rw [inlineValues] at hf
    rcases List.mem_cons.1 hf with rfl | hf
    · exact legible_inlineValue v
    · exact legible_inlineValues vs f hf

end

theorem legible_quotedValue (v : Value) : Legible (quotedValue v) := by
  unfold quotedValue
  split
  · exact legible_singleton trivial
  · exact legible_singleton (by decide)

/-! ## What a dialect brings along -/

end Sql

/-- The quotes of the dialect and the words it brings along can be read. -/
structure Dialect.Readable (d : Dialect) : Prop where
  quotes : Sql.Known d.quotes
  types : ∀ t native, d.types t = some native → (Sql.Piece.text native.name).Clean
  keyword : ∀ k, d.autoIncrement = .keyword k →
    (Sql.Piece.text k).Clean ∧ (Sql.Piece.text k).leftEdge = .clear

namespace Dialect

theorem clean_commonTypes (t : DataType) : (Sql.Piece.text (commonTypes t).name).Clean := by
  cases t <;> decide

/-- **Every dialect of the library can be read.** -/
theorem readable_of_builtin {d : Dialect} (hd : d ∈ builtin) : d.Readable := by
  refine ⟨Sql.known_of_builtin hd, ?_, ?_⟩
  · intro t native ht
    simp only [builtin, List.mem_cons, List.not_mem_nil, or_false] at hd
    rcases hd with rfl | rfl | rfl | rfl | rfl | rfl
    · cases ht
      exact clean_commonTypes t
    · cases ht
      exact clean_commonTypes t
    · cases t <;> cases ht <;> decide
    · cases t <;> cases ht <;> decide
    · cases ht
      exact clean_commonTypes t
    · cases t <;> cases ht <;> decide
  · intro k hk
    simp only [builtin, List.mem_cons, List.not_mem_nil, or_false] at hd
    rcases hd with rfl | rfl | rfl | rfl | rfl | rfl <;> cases hk <;> decide

end Dialect

namespace Sql

open Fragment

variable {d : Dialect}

/-- The name of a type and its size are words and brackets. -/
theorem clean_render {t : NativeType} (ht : (Piece.text t.name).Clean) (size : Option UInt32) :
    (Piece.text (t.render size)).Clean := by
  have hopen : ∀ c ∈ "(".toList, Inert c := by simp [Inert, quoteMarks]
  have hclose : ∀ c ∈ ")".toList, Inert c := by simp [Inert, quoteMarks]
  have hdigits : ∀ n : ℕ, ∀ c ∈ (toString n).toList, Inert c := by
    intro n c hc
    exact inert_of_inNumber (Decimal.inNumber_of_mem_toDigits (by simpa using hc))
  have hsize : ∀ n : UInt32, (Piece.text
      (if t.sizeable && n != 0 then t.name ++ "(" ++ toString n.toNat ++ ")" else t.name)).Clean := by
    intro n
    split
    · exact clean_append (clean_append (clean_append ht hopen) (hdigits n.toNat)) hclose
    · exact ht
  exact hsize _

/-! ## Columns -/

theorem attachable_defaultValue (d : Dialect) (t : DataType) (v : Value) :
    Attachable (defaultValue d t v) := by
  have hword : Mark " DEFAULT " := by decide
  unfold defaultValue
  cases d.defaultStyle with
  | bound => exact hword.attachable (legible_slot _ _)
  | inline =>
    refine hword.attachable ?_
    split
    · exact legible_quotedValue v
    · exact legible_inlineValue v

theorem legible_columnType (c : Column) {t : NativeType} (ht : (Piece.text t.name).Clean) :
    Legible (columnType d c t) := by
  unfold columnType
  split
  · split
    · exact legible_singleton (by decide)
    · exact legible_singleton (by decide)
  · have htype := legible_singleton (clean_render ht c.size)
    cases c.default with
    | none => simpa using htype
    | some v =>
      simpa using htype.attach (attachable_defaultValue d c.dataType v)

theorem attachable_columnOption (hd : d.Readable) (o : ColumnOption) :
    Attachable (columnOption d o) := by
  cases o with
  | primaryKey | notNull | unique => exact attachable_text (by decide)
  | index | uniqueIndex => exact attachable_nil
  | autoIncrement =>
    unfold columnOption
    dsimp only
    cases hk : d.autoIncrement with
    | serial => exact attachable_nil
    | keyword k => exact attachable_text (hd.keyword k hk)

theorem attachable_flatMap {α : Type} {xs : List α} {g : α → Fragment}
    (h : ∀ x, Attachable (g x)) : Attachable (xs.flatMap g) := by
  rw [List.flatMap_def]
  refine attachable_flatten fun f hf => ?_
  obtain ⟨x, -, rfl⟩ := List.mem_map.1 hf
  exact h x

/-- The name of an index and its field. -/
theorem attachable_inlineIndexes (d : Dialect) (collection : CollectionRef) (c : Column) :
    Attachable (inlineIndexes d collection c) := by
  have hopen : Mark "(" := by decide
  have hclose : Mark ")" := by decide
  unfold inlineIndexes
  cases d.indexStyle with
  | separate => exact attachable_nil
  | inline =>
    refine attachable_flatMap fun o => ?_
    have hbody : ∀ words, Mark ("," ++ words ++ " ") → ∀ ending,
        Attachable [.text ("," ++ words ++ " "), .name (constraintName collection c.field ending),
          .text "(", .name c.field, .text ")"] := by
      intro words hwords ending
      have hfield : Legible [.name c.field, .text ")"] :=
        hclose.between (legible_name c.field) legible_nil
      exact hwords.attachable (hopen.between (legible_name _) hfield)
    cases o with
    | index => exact hbody "INDEX" (by decide) "index"
    | uniqueIndex => exact hbody "UNIQUE INDEX" (by decide) "unique"
    | primaryKey | autoIncrement | notNull | unique => exact attachable_nil

/-- Indexes that are commands of their own are legible. -/
theorem legible_separateIndexes (d : Dialect) (collection : CollectionRef) (c : Column) :
    ∀ f ∈ separateIndexes d collection c, Legible f := by
  have hopen : Mark "(" := by decide
  have hon : Mark " ON " := by decide
  have hend : Legible [.text ");"] := legible_singleton (by decide)
  have hbody : ∀ words ending, (Piece.text ("CREATE " ++ words ++ " IF NOT EXISTS ")).Clean ∧
      (Piece.text ("CREATE " ++ words ++ " IF NOT EXISTS ")).rightEdge = .clear →
      Legible ([.text ("CREATE " ++ words ++ " IF NOT EXISTS "),
        .name (constraintName collection c.field ending), .text " ON "] ++ d.table collection ++
        [.text "(", .name c.field, .text ");"]) := by
    intro words ending hwords
    have hfield : Legible [.text "(", .name c.field, .text ");"] :=
      hopen.cons (hend.name_cons (leading_cons.2 (by decide)) c.field)
    have htable : Legible (d.table collection ++ [.text "(", .name c.field, .text ");"]) :=
      (legible_table d collection).attach ⟨hfield, leading_cons.2 hopen.left⟩
    rw [List.append_assoc]
    exact ((hon.cons htable).name_cons (leading_cons.2 hon.left) _).text_cons hwords.1 hwords.2
  intro f hf
  unfold separateIndexes at hf
  cases hs : d.indexStyle with
  | inline => simp [hs] at hf
  | separate =>
    simp only [hs] at hf
    obtain ⟨o, -, ho⟩ := List.mem_filterMap.1 hf
    cases o with
    | index =>
      cases ho
      exact hbody "INDEX" "index" (by decide)
    | uniqueIndex =>
      cases ho
      exact hbody "UNIQUE INDEX" "unique" (by decide)
    | primaryKey | autoIncrement | notNull | unique => cases ho

theorem legible_columnDefinition (hd : d.Readable) {collection : CollectionRef} {c : Column}
    {f : Fragment} (h : columnDefinition d collection c = .ok f) : Legible f := by
  unfold columnDefinition at h
  split at h
  · cases h
  · cases ht : d.types c.dataType with
    | none => simp [ht] at h
    | some t =>
      simp only [ht, Except.ok.injEq] at h
      subst h
      have hblank : Mark " " := by decide
      have htype := legible_columnType (d := d) c (hd.types _ _ ht)
      have hoptions : Attachable (c.options.flatMap (columnOption d)) :=
        attachable_flatMap (attachable_columnOption hd)
      have hname : Legible ([.name c.field, .text " "] ++ columnType d c t) :=
        hblank.between (legible_name c.field) htype
      refine ((hname.attach hoptions).attach ?_).attach (attachable_inlineIndexes d collection c)
      split
      · exact attachable_text (by decide)
      · exact attachable_nil

/-! ## Keys -/

theorem attachable_referenceAction {event : String}
    (hevent : event = "DELETE" ∨ event = "UPDATE") (a : Option ForeignKeyAction) :
    Attachable (referenceAction event a) := by
  match a with
  | none => exact attachable_nil
  | some .default => exact attachable_nil
  | some .cascade => rcases hevent with rfl | rfl <;> exact attachable_text (by decide)
  | some .setNull => rcases hevent with rfl | rfl <;> exact attachable_text (by decide)

theorem legible_foreignKey {collection : CollectionRef} {field : String} {key : ForeignKey}
    {f : Fragment} (h : foreignKey d collection field key = .ok f) : Legible f := by
  unfold foreignKey at h
  split at h
  · cases h
  · cases h
    have hopen : Mark "(" := by decide
    have hclose : Mark ")" := by decide
    have hkey : Mark " FOREIGN KEY(" := by decide
    have hreferences : Mark ") REFERENCES " := by decide
    have hdelete := attachable_referenceAction (.inl rfl) key.onDelete
    have hupdate := attachable_referenceAction (.inr rfl) key.onUpdate
    have hstart : Legible [.text "CONSTRAINT ", .name (constraintName collection field "fk"),
        .text " FOREIGN KEY(", .name field, .text ") REFERENCES "] :=
      (hkey.between (legible_name _) (hreferences.between (legible_name _) legible_nil)).text_cons
        (by decide) (by decide)
    have hend : Trailing [.text "CONSTRAINT ", .name (constraintName collection field "fk"),
        .text " FOREIGN KEY(", .name field, .text ") REFERENCES "] := by
      intro p hp
      obtain rfl : .text ") REFERENCES " = p := by simpa using hp
      exact hreferences.right
    have hfield : Attachable [.text "(", .name key.field, .text ")"] :=
      hopen.attachable (hclose.between (legible_name _) legible_nil)
    have htable := hstart.append (legible_table d key.collection) (.inl hend)
    exact ((htable.attach hfield).attach hdelete).attach hupdate

/-- **Every line of a definition is legible.** -/
theorem legible_definition (hd : d.Readable) {collection : CollectionRef} {x : Definition}
    {f : Fragment} (h : definition d collection x = .ok f) : Legible f := by
  cases x with
  | column c => exact legible_columnDefinition hd h
  | foreignKey field key => exact legible_foreignKey h

theorem legible_afterDefinition (d : Dialect) (collection : CollectionRef) (x : Definition) :
    ∀ f ∈ afterDefinition d collection x, Legible f := by
  cases x with
  | column c => exact legible_separateIndexes d collection c
  | foreignKey field key => simp [afterDefinition]

end Sql

end QueryLayer
