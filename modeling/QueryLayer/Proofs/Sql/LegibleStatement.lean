import QueryLayer.Proofs.Sql.Trimmed
import QueryLayer.Proofs.Walk.Parts
import QueryLayer.Sql.Render

/-!
# Every statement is legible

Whatever names and values a statement holds, the command it becomes can be read
back piece by piece (`legible_render`). The one exception is a storage engine,
which is written as the caller gives it.
-/

namespace QueryLayer

namespace Statement

/-- No storage engine is asked for, which would be written as it is. -/
def PlainEngine (s : Statement) : Prop := ∀ c, s = .create c → c.engine = none

end Statement

namespace Sql

open Fragment

variable {d : Dialect} {values : List Value}

/-! ## Searches and changes -/

theorem legible_projection (p : Projection) : Legible (projection p) := by
  have has : Mark " AS " := by decide
  unfold projection
  split
  · exact has.between (legible_target _) (legible_name _)
  · exact legible_target _

theorem legible_projections (ps : List Projection) : Legible (projections ps) := by
  unfold projections
  split
  · exact legible_singleton (by decide)
  · refine legible_join (by decide) fun f hf => ?_
    obtain ⟨p, -, rfl⟩ := List.mem_map.1 hf
    exact legible_projection p

/-- A table, a blank and the clauses behind it. -/
theorem legible_table_clauses (d : Dialect) (c : CollectionRef) (p : Plan) :
    Legible (d.table c ++ [.text " "] ++ clauses d p) := by
  have hblank : Mark " " := by decide
  rw [List.append_assoc]
  exact hblank.between (legible_table d c) (legible_clauses d p)

theorem legible_select {s : Find} {f : Fragment} (h : select d s values = .ok f) : Legible f := by
  obtain ⟨p, -, h⟩ := Run.outcome_bind_eq_ok.1 h
  cases h
  have hfrom : Mark " FROM " := by decide
  have hbody := legible_table_clauses d s.collection p
  simp only [List.append_assoc, List.singleton_append] at hbody ⊢
  exact (hfrom.between (legible_projections s.projection) hbody).text_cons (by decide) (by decide)

theorem legible_delete {s : Search} {f : Fragment} (h : delete d s values = .ok f) : Legible f := by
  obtain ⟨p, -, h⟩ := Run.outcome_bind_eq_ok.1 h
  cases h
  exact (legible_table_clauses d s.collection p).text_cons (by decide) (by decide)

theorem legible_count {s : Search} {f : Fragment} (h : count d s values = .ok f) : Legible f := by
  obtain ⟨p, -, h⟩ := Run.outcome_bind_eq_ok.1 h
  cases h
  have hfrom : Mark " FROM " := by decide
  have hbody := legible_table_clauses d s.collection p
  simp only [List.append_assoc] at hbody ⊢
  exact (hfrom.between (legible_name _) hbody).text_cons (by decide) (by decide)

/-- An assignment is legible and ends with its placeholder. -/
theorem legible_assignment (a : Assignment) (v : Value) :
    Legible (assignment a v) ∧ Trailing (assignment a v) := by
  have hequals : Mark "=" := by decide
  have hslot : Legible [.slot .assignment v] := legible_slot _ _
  have hend : ∀ s, Trailing [.text s, .slot .assignment v] := by
    intro s p hp
    obtain rfl : .slot .assignment v = p := by simpa using hp
    rfl
  unfold assignment
  dsimp only
  split
  · next op hop =>
    have hop : Mark op.symbol.toString := by cases op <;> decide
    have hfield := legible_fieldName a.field
    refine ⟨?_, (trailing_append_of_ne_nil (by simp)).2 (hend _)⟩
    simp only [List.append_assoc, List.singleton_append]
    exact hequals.between hfield (hop.between hfield hslot)
  · exact ⟨hequals.between (legible_fieldName a.field) hslot,
      (trailing_append_of_ne_nil (by simp)).2 (hend _)⟩

/-- An update is rendered if it has assignments, and holds them with their values. -/
theorem update_eq_ok {s : Search} {f : Fragment} : update d s values = .ok f ↔
    ∃ xs p, Plan.ofChanges (rules d "update") Assignment.resolved s.entries values = .ok (xs, p) ∧
      xs ≠ [] ∧ f = .text "UPDATE " :: (d.table s.collection ++ [.text " SET "] ++
        Fragment.join "," (xs.map fun a => assignment a.1 a.2) ++ clauses d p) := by
  unfold update
  simp only [Plan.ofChanges_resolved]
  rw [Run.outcome_bind_eq_ok]
  constructor
  · rintro ⟨⟨fs, p⟩, hp, h⟩
    obtain ⟨⟨xs, p'⟩, hxs, hp⟩ := Run.outcome_map_eq_ok.1 hp
    cases hp
    cases xs with
    | nil => cases h
    | cons x xs =>
      cases h
      exact ⟨x :: xs, p', hxs, List.cons_ne_nil x xs, rfl⟩
  · rintro ⟨xs, p, hxs, hne, rfl⟩
    refine ⟨_, Run.outcome_map_eq_ok.2 ⟨(xs, p), hxs, rfl⟩, ?_⟩
    cases xs with
    | nil => exact absurd rfl hne
    | cons x xs => rfl

theorem legible_update {s : Search} {f : Fragment} (h : update d s values = .ok f) : Legible f := by
  obtain ⟨xs, p, -, -, rfl⟩ := update_eq_ok.1 h
  have hset : Mark " SET " := by decide
  have hassignments : ∀ f ∈ xs.map fun a => assignment a.1 a.2, Legible f ∧ Trailing f := by
    intro f hf
    obtain ⟨a, -, rfl⟩ := List.mem_map.1 hf
    exact legible_assignment a.1 a.2
  have hcomma : Mark "," := by decide
  have hjoin := legible_join hcomma fun f hf => (hassignments f hf).1
  have hend := trailing_join hcomma fun f hf => (hassignments f hf).2
  simp only [List.append_assoc, List.singleton_append]
  exact (hset.between (legible_table d s.collection) (hjoin.append (legible_clauses d p)
    (.inl hend))).text_cons (by decide) (by decide)

/-! ## Rows -/

theorem legible_rowGroups (rows : List (List Value)) : Legible (rowGroups rows) := by
  have hopen : Mark "(" := by decide
  have hclose : Mark ")" := by decide
  refine legible_join (by decide) fun f hf => ?_
  obtain ⟨r, hr, rfl⟩ := List.mem_mapIdx.1 hf
  refine hopen.cons (hclose.between (legible_join (by decide) fun g hg => ?_) legible_nil)
  obtain ⟨c, hc, rfl⟩ := List.mem_mapIdx.1 hg
  exact legible_slot _ _

theorem attachable_rowList {columns : List Fragment} (hcolumns : ∀ f ∈ columns, Legible f)
    (rows : List (List Value)) : Attachable (rowList columns rows) := by
  have hopen : Mark " (" := by decide
  have hvalues : Mark ") VALUES " := by decide
  have hend : Mark ";" := by decide
  unfold rowList
  simp only [List.append_assoc, List.singleton_append]
  exact hopen.attachable (hvalues.between (legible_join (by decide) hcolumns)
    (hend.between (legible_rowGroups rows) legible_nil))

theorem insert_eq_ok {s : Insert} {f : Fragment} :
    insert d s values = .ok f ↔ ∃ rows, s.rows values = .ok rows ∧
      f = .text "INSERT INTO " :: (d.table s.collection ++
        rowList (s.columns.map fun c => [.name c.field]) rows) := by
  rw [insert, Run.outcome_bind_eq_ok]
  exact exists_congr fun rows => and_congr_right fun _ =>
    ⟨fun h => (Except.ok.inj h).symm, fun h => congrArg Except.ok h.symm⟩

theorem legible_insert {s : Insert} {f : Fragment} (h : insert d s values = .ok f) : Legible f := by
  obtain ⟨rows, -, h⟩ := Run.outcome_bind_eq_ok.1 h
  cases h
  have hcolumns : ∀ f ∈ s.columns.map fun c => [Piece.name c.field], Legible f := by
    intro f hf
    obtain ⟨c, -, rfl⟩ := List.mem_map.1 hf
    exact legible_name c.field
  have hbody := (legible_table d s.collection).attach (attachable_rowList hcolumns rows)
  exact hbody.text_cons (by decide) (by decide)

/-- A replace is rendered where the dialect has one and there is an assignment
to render. -/
theorem replace_eq_ok {s : Search} {f : Fragment} :
    replace d s values = .ok f ↔ d.replaceStyle ≠ .unsupported ∧
      ∃ columns rest, (replacements d s.entries).run (.ofList values) = .ok (columns, rest) ∧
        columns ≠ [] ∧ f = .text "REPLACE INTO " :: (d.table s.collection ++
          rowList (columns.map fun c => fieldName c.1) [columns.map Prod.snd]) := by
  constructor
  · intro h
    unfold replace at h
    split at h
    · cases h
    · next hstyle =>
      obtain ⟨-, -, h⟩ := Run.outcome_bind_eq_ok.1 h
      obtain ⟨⟨columns, rest⟩, hcolumns, h⟩ := Run.outcome_bind_eq_ok.1 h
      cases columns with
      | nil => cases h
      | cons c cs => exact ⟨hstyle, c :: cs, rest, hcolumns, by simp, (Except.ok.inj h).symm⟩
  · rintro ⟨hstyle, columns, rest, hcolumns, hne, rfl⟩
    rw [replace, if_neg hstyle]
    cases columns with
    | nil => exact absurd rfl hne
    | cons c cs => exact Run.outcome_bind_eq_ok.2 ⟨_, hcolumns, rfl⟩

/-- The columns of a replace are the fields it assigns with their values, and it holds
nothing else. -/
theorem forall₂_of_replacements : ∀ {es : List Entry} {supply supply' : Supply}
    {xs : List (FieldRef × Value)}, (replacements d es).run supply = .ok (xs, supply') →
      List.Forall₂ (fun a x => x.1 = a.field ∧ a.value.Gives x.2) (Entry.partsAll es).assignments
        xs := by
  intro es
  induction es with
  | nil =>
    intro supply supply' xs h
    cases h
    exact .nil
  | cons e es ih =>
    intro supply supply' xs h
    simp only [replacements, List.mapM_cons] at h ih
    obtain ⟨x, m, hx, h⟩ := Run.bind_eq_ok.1 h
    obtain ⟨ys, m', hys, h⟩ := Run.bind_eq_ok.1 h
    cases Run.pure_eq_ok.1 h
    cases e with
    | set a =>
      cases ho : a.operator with
      | some op =>
        simp only [ho] at hx
        cases hx
      | none =>
        simp only [ho] at hx
        obtain ⟨v, m'', hv, hx⟩ := Run.bind_eq_ok.1 hx
        cases Run.pure_eq_ok.1 hx
        exact .cons ⟨rfl, Operand.gives_of_resolve hv⟩ (ih hys)
    | condition _ | operation _ _ | join _ | limit _ | orderBy _ | groupBy _ => cases hx

theorem legible_replace {s : Search} {f : Fragment} (h : replace d s values = .ok f) :
    Legible f := by
  obtain ⟨-, columns, rest, -, -, rfl⟩ := replace_eq_ok.1 h
  have hcolumns : ∀ f ∈ columns.map fun c : FieldRef × Value => fieldName c.1, Legible f := by
    intro f hf
    obtain ⟨c, -, rfl⟩ := List.mem_map.1 hf
    exact legible_fieldName c.1
  have hrows := attachable_rowList hcolumns [columns.map Prod.snd]
  exact ((legible_table d s.collection).attach hrows).text_cons (by decide) (by decide)

/-! ## Tables -/

theorem attachable_included (hd : d.Readable) {s : Create} {f : Fragment}
    (h : included d s values = .ok f) : Attachable f := by
  unfold included at h
  cases hs : s.included with
  | none =>
    simp only [hs, Except.ok.injEq] at h
    subst h
    exact attachable_nil
  | some find =>
    simp only [hs] at h
    split at h
    · cases h
    · obtain ⟨-, -, h⟩ := Run.outcome_bind_eq_ok.1 h
      obtain ⟨g, hg, h⟩ := Run.outcome_bind_eq_ok.1 h
      cases h
      have has : Mark " AS " := by decide
      exact has.attachable (legible_trimEnd hd.quotes (legible_select hg))

/-- A create that is rendered has its lines and the search that fills it. -/
theorem create_eq_ok {s : Create} {q : Query} (h : create d s values = .ok q) :
    ∃ lines fill,
      List.Forall₂ (fun x f => definition d s.collection x = .ok f) s.definitions lines ∧
      included d s values = .ok fill ∧
      q = ⟨d.quotes, .text "CREATE TABLE IF NOT EXISTS " :: (d.table s.collection ++ [.text "("] ++
        Fragment.join "," lines ++ [.text ")"] ++ engine d s ++ fill ++ [.text ";"]),
        s.definitions.flatMap (afterDefinition d s.collection)⟩ := by
  unfold create at h
  split at h
  · cases h
  · obtain ⟨-, -, h⟩ := Run.outcome_bind_eq_ok.1 h
    obtain ⟨lines, hlines, h⟩ := Run.outcome_bind_eq_ok.1 h
    obtain ⟨fill, hfill, h⟩ := Run.outcome_bind_eq_ok.1 h
    cases h
    exact ⟨lines, fill, Run.outcome_mapM_eq_ok.1 hlines, hfill, rfl⟩

theorem legible_definitions (hd : d.Readable) {collection : CollectionRef} :
    ∀ {xs : List Definition} {fs : List Fragment},
      List.Forall₂ (fun x f => definition d collection x = .ok f) xs fs → ∀ f ∈ fs, Legible f
  | _, _, .nil, _, hf => by cases hf
  | _, _, .cons hx hxs, f, hf => by
    rcases List.mem_cons.1 hf with rfl | hf
    · exact legible_definition hd hx
    · exact legible_definitions hd hxs f hf

theorem legible_create (hd : d.Readable) {s : Create} (hs : s.engine = none) {q : Query}
    (h : create d s values = .ok q) : Legible q.command ∧ ∀ f ∈ q.additional, Legible f := by
  obtain ⟨lines, fill, hlines, hfill, rfl⟩ := create_eq_ok h
  have hopen : Mark "(" := by decide
  have hclose : Mark ")" := by decide
  have hend : Mark ";" := by decide
  have hline := legible_definitions hd hlines
  have hfill := attachable_included hd hfill
  have hengine : engine d s = [] := by simp [engine, hs]
  refine ⟨?_, fun f hf => ?_⟩
  · rw [hengine]
    simp only [List.append_assoc, List.singleton_append]
    exact (hopen.between (legible_table d s.collection) (hclose.between
      (legible_join (by decide) hline) (hend.between hfill.legible legible_nil))).text_cons (by decide)
        (by decide)
  · obtain ⟨x, -, hx⟩ := List.mem_flatMap.1 hf
    exact legible_afterDefinition d s.collection x f hx

theorem legible_drop {target : DropTarget} {f : Fragment} (h : drop d target = .ok f) :
    Legible f := by
  cases target with
  | collection c =>
    cases h
    exact (legible_table d c).text_cons (by decide) (by decide)
  | database name =>
    unfold drop at h
    cases he : d.environment with
    | embedded => simp [he] at h
    | server =>
      simp only [he, Except.ok.injEq] at h
      subst h
      exact (legible_name name).text_cons (by decide) (by decide)

/-! ## All statements -/

/-- **The command of every statement is legible, and so are the commands that
follow it.** -/
theorem legible_render (hd : d.Readable) {s : Statement} (hs : s.PlainEngine) {q : Query}
    (h : render d s values = .ok q) : Legible q.command ∧ ∀ f ∈ q.additional, Legible f := by
  have hsingle : ∀ {x : Except QueryError Fragment}, x.map (single d) = .ok q →
      (∀ f, x = .ok f → Legible f) → Legible q.command ∧ ∀ f ∈ q.additional, Legible f := by
    intro x hx hlegible
    obtain ⟨f, hf, rfl⟩ := Run.outcome_map_eq_ok.1 hx
    exact ⟨hlegible f hf, by simp [single]⟩
  cases s with
  | find s => exact hsingle h fun f => legible_select
  | insert s => exact hsingle h fun f => legible_insert
  | update s => exact hsingle h fun f => legible_update
  | delete s => exact hsingle h fun f => legible_delete
  | replace s => exact hsingle h fun f => legible_replace
  | create s => exact legible_create hd (hs s rfl) h
  | drop target => exact hsingle h fun f => legible_drop
  | clear c =>
    cases h
    exact ⟨(legible_table d c).text_cons (by decide) (by decide), by simp [single]⟩
  | count s => exact hsingle h fun f => legible_count

/-- A query has the quotes of its dialect. -/
theorem quotes_render {s : Statement} {q : Query} (h : render d s values = .ok q) :
    q.quotes = d.quotes := by
  have hsingle : ∀ {x : Except QueryError Fragment}, x.map (single d) = .ok q →
      q.quotes = d.quotes := by
    intro x hx
    obtain ⟨f, -, rfl⟩ := Run.outcome_map_eq_ok.1 hx
    rfl
  cases s with
  | find s | insert s | update s | delete s | replace s | drop s | count s => exact hsingle h
  | create s =>
    obtain ⟨lines, fill, -, -, rfl⟩ := create_eq_ok h
    rfl
  | clear c =>
    cases h
    rfl

end Sql

end QueryLayer
