import QueryLayer.Proofs.Names.Shape
import QueryLayer.Proofs.Sql.LegibleStatement

/-!
# Commands without names

A statement and the nameless one become commands of one shape
(`render_nameless`): where the statement is rendered, so is the nameless one, and
the two differ in nothing but the content of their names, literals and slots.
-/

namespace QueryLayer

namespace Sql

open Fragment

variable {d : Dialect} {values : List Value}

/-! ## Rows -/

theorem shape_rowList {fs gs : List Fragment} (h : fs.map shape = gs.map shape)
    (rows : List (List Value)) : shape (rowList fs rows) = shape (rowList gs rows) := by
  simp [rowList, h]

/-- The rows of an insert do not depend on its names. -/
theorem rows_nameless {s : Insert} {rows : List (List Value)} (h : s.rows values = .ok rows) :
    s.nameless.rows values = .ok rows := by
  have hwidth : s.nameless.columns.length = s.columns.length := by simp [Insert.nameless]
  have hoperands : s.nameless.operands = s.operands := by
    simp [Insert.operands, Insert.nameless, List.flatMap_map]
  have hcount : s.nameless.cellCount values.length = s.cellCount values.length := by
    rw [Insert.cellCount, Insert.stored, Insert.markers, hoperands]
    rfl
  have hfill : ∀ n, s.nameless.fill n = s.fill n := by
    intro n
    simp only [Insert.fill, Insert.nameless, List.mapM_map]
    rfl
  unfold Insert.rows at h ⊢
  dsimp only at h ⊢
  rw [hwidth, hcount, hfill]
  split at h
  · cases h
  · next hempty =>
    split at h
    · cases h
    · next hbalanced =>
      rw [if_neg hempty, if_neg hbalanced]
      split at h
      · cases h
      · next hnone =>
        have hnone' : s.nameless.columns.find? (fun c =>
            s.cellCount values.length / s.columns.length < c.values.length) = none := by
          simpa [Insert.nameless, List.find?_map, Function.comp_def] using hnone
        rw [hnone']
        exact h

theorem insert_nameless {s : Insert} {f : Fragment} (h : insert d s values = .ok f) :
    ∃ f₀, insert d s.nameless values = .ok f₀ ∧ shape f₀ = shape f := by
  obtain ⟨rows, hrows, h⟩ := Run.outcome_bind_eq_ok.1 h
  cases h
  refine ⟨_, Run.outcome_bind_eq_ok.2 ⟨rows, rows_nameless hrows, rfl⟩, ?_⟩
  have hcolumns : (s.nameless.columns.map fun c => [Piece.name c.field]).map shape =
      (s.columns.map fun c => [Piece.name c.field]).map shape := by
    simp [Insert.nameless, Function.comp_def]
  have htable := shape_table d s.collection
  simp only [shape_text_cons, shape_append, shape_rowList hcolumns]
  rw [← htable]
  rfl

/-! ## Literals -/

mutual

/-- The literals of a value stand where they stand without the texts. -/
theorem shape_inlineValue : ∀ v : Value, shape (inlineValue v.nameless) = shape (inlineValue v)
  | .null | .bool _ | .int _ | .float _ | .blob _ => by simp [Value.nameless]
  | .text s => by simp [Value.nameless, inlineValue]
  | .list vs => by
    simp [Value.nameless, inlineValue, shape_inlineValues vs]

theorem shape_inlineValues : ∀ vs : List Value,
    (inlineValues (Value.namelessAll vs)).map shape = (inlineValues vs).map shape
  | [] => rfl
  | v :: vs => by
    simp [Value.namelessAll, inlineValues, shape_inlineValue v, shape_inlineValues vs]

end

theorem shape_quotedValue (v : Value) : shape (quotedValue v.nameless) = shape (quotedValue v) := by
  cases v <;> simp [quotedValue, Value.nameless, Value.textContent]

/-! ## Tables -/

theorem shape_defaultValue (d : Dialect) (t : DataType) (v : Value) :
    shape (defaultValue d t v.nameless) = shape (defaultValue d t v) := by
  unfold defaultValue
  cases d.defaultStyle with
  | bound => rfl
  | inline =>
    cases t.isTextual with
    | true => simp [shape_quotedValue]
    | false => simp [shape_inlineValue]

theorem shape_columnType (d : Dialect) (c : Column) (t : NativeType) :
    shape (columnType d c.nameless t) = shape (columnType d c t) := by
  have hserial : isSerial d c.nameless = isSerial d c := rfl
  unfold columnType
  rw [hserial]
  split
  · rfl
  · cases hc : c.default with
    | none => simp [Column.nameless, hc]
    | some v => simp [Column.nameless, hc, shape_defaultValue]

theorem shape_inlineIndexes (d : Dialect) (collection : CollectionRef) (c : Column) :
    shape (inlineIndexes d collection.nameless c.nameless) =
      shape (inlineIndexes d collection c) := by
  have hoptions : c.nameless.options = c.options := rfl
  unfold inlineIndexes
  cases d.indexStyle with
  | separate => rfl
  | inline =>
    simp only [piecewise_shape.flatMap, hoptions]
    refine List.flatMap_congr fun o _ => ?_
    cases indexKind o with
    | none => rfl
    | some kind => simp only [shape_text_cons, shape_name_cons]

theorem shape_separateIndexes (d : Dialect) (collection : CollectionRef) (c : Column) :
    (separateIndexes d collection.nameless c.nameless).map shape =
      (separateIndexes d collection c).map shape := by
  have hoptions : c.nameless.options = c.options := rfl
  unfold separateIndexes
  cases d.indexStyle with
  | inline => rfl
  | separate =>
    simp only [List.map_filterMap, hoptions]
    refine List.filterMap_congr fun o _ => ?_
    cases indexKind o with
    | none => rfl
    | some kind => simp [Column.nameless]

/-- The nameless line has the shape of the line. -/
theorem definition_nameless {collection : CollectionRef} {x : Definition} {f : Fragment}
    (h : definition d collection x = .ok f) :
    ∃ f₀, definition d collection.nameless x.nameless = .ok f₀ ∧ shape f₀ = shape f := by
  have hname : ¬ (anyName.isEmpty = true) := by decide
  cases x with
  | column c =>
    simp only [definition, columnDefinition] at h
    split at h
    · cases h
    · cases ht : d.types c.dataType with
      | none => simp [ht] at h
      | some t =>
        have ht' : d.types c.nameless.dataType = some t := ht
        have hfield : c.nameless.field = anyName := rfl
        simp only [ht, Except.ok.injEq] at h
        simp only [Definition.nameless, definition, columnDefinition, hfield, if_neg hname, ht']
        refine ⟨_, rfl, ?_⟩
        subst h
        simp only [shape_append, shape_columnType, shape_inlineIndexes]
        rfl
  | foreignKey field key =>
    simp only [definition, foreignKey] at h
    split at h
    · cases h
    · cases h
      have hfield : key.nameless.field = anyName := rfl
      have hnames : ¬ ((anyName.isEmpty || anyName.isEmpty) = true) := by decide
      simp only [Definition.nameless, definition, foreignKey, hfield, if_neg hnames]
      refine ⟨_, rfl, ?_⟩
      have htable := shape_table d key.collection
      simp only [shape_append, ← htable]
      rfl

theorem definitions_nameless {collection : CollectionRef} :
    ∀ {xs : List Definition} {fs : List Fragment},
      List.Forall₂ (fun x f => definition d collection x = .ok f) xs fs →
        ∃ fs₀, List.Forall₂ (fun x f => definition d collection.nameless x = .ok f)
          (xs.map Definition.nameless) fs₀ ∧ fs₀.map shape = fs.map shape
  | _, _, .nil => ⟨[], .nil, rfl⟩
  | _, _, .cons hx hxs => by
    obtain ⟨f, hf, hshape⟩ := definition_nameless hx
    obtain ⟨fs, hfs, hshapes⟩ := definitions_nameless hxs
    exact ⟨f :: fs, .cons hf hfs, by rw [List.map_cons, List.map_cons, hshape, hshapes]⟩

/-! ## Searches and changes -/

theorem nameless_rules (d : Dialect) (statement : String) : (rules d statement).Nameless :=
  ⟨fun _ => id, fun _ => id, fun _ => id, fun _ => id, fun _ => id⟩

theorem select_nameless {s : Find} {f : Fragment} (h : select d s values = .ok f) :
    ∃ f₀, select d s.nameless values = .ok f₀ ∧ shape f₀ = shape f := by
  obtain ⟨p, hp, h⟩ := Run.outcome_bind_eq_ok.1 h
  cases h
  have hplan := Plan.ofEntries_nameless (nameless_rules d "find") hp
  refine ⟨_, Run.outcome_bind_eq_ok.2 ⟨p.nameless, hplan, rfl⟩, ?_⟩
  simp only [shape_text_cons, shape_append, Find.nameless, Search.nameless, shape_projections,
    shape_table, shape_clauses]

theorem delete_nameless {s : Search} {f : Fragment} (h : delete d s values = .ok f) :
    ∃ f₀, delete d s.nameless values = .ok f₀ ∧ shape f₀ = shape f := by
  obtain ⟨p, hp, h⟩ := Run.outcome_bind_eq_ok.1 h
  cases h
  have hplan := Plan.ofEntries_nameless (nameless_rules d "delete") hp
  refine ⟨_, Run.outcome_bind_eq_ok.2 ⟨p.nameless, hplan, rfl⟩, ?_⟩
  simp only [shape_text_cons, shape_append, Search.nameless, shape_table, shape_clauses]

theorem count_nameless {s : Search} {f : Fragment} (h : count d s values = .ok f) :
    ∃ f₀, count d s.nameless values = .ok f₀ ∧ shape f₀ = shape f := by
  obtain ⟨p, hp, h⟩ := Run.outcome_bind_eq_ok.1 h
  cases h
  have hplan := Plan.ofEntries_nameless (nameless_rules d "count") hp
  refine ⟨_, Run.outcome_bind_eq_ok.2 ⟨p.nameless, hplan, rfl⟩, ?_⟩
  simp only [shape_append, Search.nameless, shape_table, shape_clauses]

theorem update_nameless {s : Search} {f : Fragment} (h : update d s values = .ok f) :
    ∃ f₀, update d s.nameless values = .ok f₀ ∧ shape f₀ = shape f := by
  obtain ⟨xs, p, hxs, hne, rfl⟩ := update_eq_ok.1 h
  have hplan := Plan.ofChanges_nameless (nameless_rules d "update") hxs
  have hne' : xs.map (Prod.map Assignment.nameless id) ≠ [] := by simpa using hne
  refine ⟨_, update_eq_ok.2 ⟨_, _, hplan, hne', rfl⟩, ?_⟩
  simp [Search.nameless, Function.comp_def]

/-- The columns of a replace are taken without looking at their names. -/
theorem replacements_nameless : ∀ {es : List Entry} {supply supply' : Supply}
    {xs : List (FieldRef × Value)}, (replacements d es).run supply = .ok (xs, supply') →
      (replacements d (Entry.namelessAll es)).run supply =
        .ok (xs.map (Prod.map FieldRef.nameless id), supply') := by
  intro es
  induction es with
  | nil =>
    intro supply supply' xs h
    cases h
    rfl
  | cons e es ih =>
    intro supply supply' xs h
    simp only [replacements, Entry.namelessAll, List.mapM_cons] at h ih ⊢
    obtain ⟨x, m, hx, h⟩ := Run.bind_eq_ok.1 h
    obtain ⟨ys, m', hys, h⟩ := Run.bind_eq_ok.1 h
    cases Run.pure_eq_ok.1 h
    cases e with
    | set a =>
      refine Run.bind_eq_ok.2 ⟨Prod.map FieldRef.nameless id x, m, ?_,
        Run.bind_eq_ok.2 ⟨_, _, ih hys, rfl⟩⟩
      cases ho : a.operator with
      | some op =>
        simp only [ho] at hx
        cases hx
      | none =>
        simp only [ho] at hx
        simp only [Entry.nameless, Assignment.nameless, ho]
        obtain ⟨v, m'', hv, hx⟩ := Run.bind_eq_ok.1 hx
        cases Run.pure_eq_ok.1 hx
        exact Run.bind_eq_ok.2 ⟨v, _, hv, rfl⟩
    | condition _ | operation _ _ | join _ | limit _ | orderBy _ | groupBy _ => cases hx

theorem replace_nameless {s : Search} {f : Fragment} (h : replace d s values = .ok f) :
    ∃ f₀, replace d s.nameless values = .ok f₀ ∧ shape f₀ = shape f := by
  obtain ⟨hstyle, columns, rest, hcolumns, hne, rfl⟩ := replace_eq_ok.1 h
  have hsome : columns.map (Prod.map FieldRef.nameless id) ≠ [] := by simpa using hne
  refine ⟨_, replace_eq_ok.2 ⟨hstyle, _, rest, replacements_nameless hcolumns, hsome, rfl⟩, ?_⟩
  have hrows : (columns.map (Prod.map FieldRef.nameless id)).map Prod.snd =
      columns.map Prod.snd := by simp [Function.comp_def]
  have hnames : ((columns.map (Prod.map FieldRef.nameless id)).map fun c =>
      fieldName c.1).map shape = (columns.map fun c => fieldName c.1).map shape := by
    simp [Function.comp_def]
  simp only [shape_text_cons, shape_append, hrows, shape_rowList hnames, Search.nameless,
    shape_table]

/-! ## Tables that are filled -/

/-- A piece with the shape of a text is that text. -/
theorem Piece.shape_eq_text {p : Piece} {s : String} : p.shape = .text s ↔ p = .text s := by
  cases p <;> simp [Piece.shape]

/-- Blanks are dropped alike from fragments of one shape. -/
theorem shape_dropBlank {q : Text.Quotes} (hq : Known q) : ∀ {f g : Fragment}, shape f = shape g →
    shape (dropBlank q f) = shape (dropBlank q g)
  | [], [], _ => rfl
  | p :: f, p' :: g, h => by
    obtain ⟨hp, hfg⟩ : p.shape = p'.shape ∧ shape f = shape g := List.cons.inj h
    by_cases htext : ∀ s, p ≠ .text s
    · have htext' : ∀ s, p' ≠ .text s := by
        rintro s rfl
        exact htext s (Piece.shape_eq_text.1 hp)
      rw [dropBlank_cons hq htext, dropBlank_cons hq htext', h]
    · obtain ⟨s, rfl⟩ : ∃ s, p = .text s := by simpa using htext
      obtain rfl : p' = .text s := Piece.shape_eq_text.1 hp.symm
      rw [dropBlank, dropBlank]
      split
      · exact shape_dropBlank hq hfg
      · split
        · exact h
        · simp only [shape_text_cons, hfg]

theorem shape_trimEnd {q : Text.Quotes} (hq : Known q) {f g : Fragment} (h : shape f = shape g) :
    shape (trimEnd q f) = shape (trimEnd q g) := by
  have hreverse : shape f.reverse = shape g.reverse := by
    rw [shape, shape, List.map_reverse, List.map_reverse]
    exact congrArg List.reverse h
  unfold trimEnd
  have hdrop := shape_dropBlank hq hreverse
  rw [shape, shape, List.map_reverse, List.map_reverse]
  exact congrArg List.reverse hdrop

theorem included_nameless (hd : d.Readable) {s : Create} {f : Fragment}
    (h : included d s values = .ok f) :
    ∃ f₀, included d s.nameless values = .ok f₀ ∧ shape f₀ = shape f := by
  unfold included at h ⊢
  cases hs : s.included with
  | none =>
    have hs' : s.nameless.included = none := by simp [Create.nameless, hs]
    simp only [hs] at h
    simp only [hs']
    exact ⟨f, h, rfl⟩
  | some find =>
    have hs' : s.nameless.included = some find.nameless := by simp [Create.nameless, hs]
    simp only [hs] at h
    simp only [hs']
    split at h
    · cases h
    · next hselect =>
      obtain ⟨g, hg, h⟩ := Run.outcome_bind_eq_ok.1 h
      cases h
      obtain ⟨g₀, hg₀, hshape⟩ := select_nameless hg
      rw [if_neg hselect]
      refine ⟨_, Run.outcome_bind_eq_ok.2 ⟨g₀, hg₀, rfl⟩, ?_⟩
      simp only [shape_text_cons, shape_trimEnd hd.quotes hshape]

theorem create_nameless (hd : d.Readable) {s : Create} {q : Query}
    (h : create d s values = .ok q) :
    ∃ q₀, create d s.nameless values = .ok q₀ ∧ shape q₀.command = shape q.command ∧
      q₀.additional.map shape = q.additional.map shape := by
  unfold create at h ⊢
  split at h
  · cases h
  · next hne =>
    obtain ⟨lines, hlines, h⟩ := Run.outcome_bind_eq_ok.1 h
    obtain ⟨fill, hfill, h⟩ := Run.outcome_bind_eq_ok.1 h
    cases h
    obtain ⟨lines₀, hlines₀, hshapes⟩ := definitions_nameless (Run.outcome_mapM_eq_ok.1 hlines)
    obtain ⟨fill₀, hfill₀, hshape⟩ := included_nameless hd hfill
    have hne' : ¬ (s.nameless.definitions.isEmpty = true) := by simpa [Create.nameless] using hne
    rw [if_neg hne']
    refine ⟨_, Run.outcome_bind_eq_ok.2 ⟨lines₀, Run.outcome_mapM_eq_ok.2 hlines₀,
      Run.outcome_bind_eq_ok.2 ⟨fill₀, hfill₀, rfl⟩⟩, ?_, ?_⟩
    · have hengine : engine d s.nameless = engine d s := rfl
      have htable := shape_table d s.collection
      simp only [shape_text_cons, shape_append, shape_join, hshapes, hshape, hengine, ← htable]
      rfl
    · have hafter : ∀ x : Definition,
          (afterDefinition d s.collection.nameless x.nameless).map shape =
            (afterDefinition d s.collection x).map shape := by
        intro x
        cases x with
        | column c => exact shape_separateIndexes d s.collection c
        | foreignKey field key => rfl
      simp only [Create.nameless, List.flatMap_map, List.map_flatMap, hafter]

theorem drop_nameless {name : String} {f : Fragment} (h : drop d (.database name) = .ok f) :
    ∃ f₀, drop d (.database anyName) = .ok f₀ ∧ shape f₀ = shape f := by
  unfold drop at h ⊢
  cases he : d.environment with
  | embedded => simp [he] at h
  | server =>
    simp only [he, Except.ok.injEq] at h
    subst h
    exact ⟨_, rfl, rfl⟩

/-! ## All statements -/

/-- **A statement and the nameless one become commands of one shape.** -/
theorem render_nameless (hd : d.Readable) {s : Statement} {q : Query}
    (h : render d s values = .ok q) :
    ∃ q₀, render d s.nameless values = .ok q₀ ∧ shape q₀.command = shape q.command ∧
      q₀.additional.map shape = q.additional.map shape := by
  have hsingle : ∀ {x x₀ : Except QueryError Fragment}, x.map (single d) = .ok q →
      (∀ f, x = .ok f → ∃ f₀, x₀ = .ok f₀ ∧ shape f₀ = shape f) →
      ∃ q₀, x₀.map (single d) = .ok q₀ ∧ shape q₀.command = shape q.command ∧
        q₀.additional.map shape = q.additional.map shape := by
    intro x x₀ hx hf
    obtain ⟨f, hok, rfl⟩ := Run.outcome_map_eq_ok.1 hx
    obtain ⟨f₀, hok₀, hshape⟩ := hf f hok
    exact ⟨single d f₀, Run.outcome_map_eq_ok.2 ⟨f₀, hok₀, rfl⟩, hshape, rfl⟩
  cases s with
  | find s => exact hsingle h fun f => select_nameless
  | insert s => exact hsingle h fun f => insert_nameless
  | update s => exact hsingle h fun f => update_nameless
  | delete s => exact hsingle h fun f => delete_nameless
  | replace s => exact hsingle h fun f => replace_nameless
  | create s => exact create_nameless hd h
  | count s => exact hsingle h fun f => count_nameless
  | drop target =>
    cases target with
    | collection c =>
      cases h
      exact ⟨_, rfl, by simp [single], rfl⟩
    | database name => exact hsingle h fun f => drop_nameless
  | clear c =>
    cases h
    exact ⟨_, rfl, by simp [single, clear], rfl⟩

end Sql

end QueryLayer
