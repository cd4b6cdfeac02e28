import QueryLayer.Proofs.Language.Accepted
import QueryLayer.Proofs.Sql.Apart
import QueryLayer.Proofs.Sql.Asked

/-!
# Every placeholder has its own value

The text of a command is read back together with its bound values. What each
placeholder stands for is read from the text before it, and this gives exactly the
places that the statement asks for, each with its value (`placeholders_match_places`).
It does so although text and values can be collected in buffers of their own, where
nothing ties a placeholder to its value (`Apart.compile`).

Most of a command binds nothing and may hold what it will. What is shown of the rest is
that each placeholder has before it what it looks back at: an assignment the word `SET`
or a comma, a default its column, and a cell the rows and the columns of its insert.
-/

namespace QueryLayer

namespace Sql

open Fragment

variable {d : Dialect} {values : List Value} {b : List Token}

/-! ## Searches -/

/-- The clauses of a search are read behind whatever binds no value. -/
theorem reads_headed {statement : String} {es : List Entry} {p : Plan} {head : Fragment}
    (hhead : slots head = []) (hp : Plan.ofEntries (rules d statement) es values = .ok p)
    (b : List Token) : Reads b (head ++ clauses d p) (searchPlaces d es values) := by
  rw [← places_of_ofEntries hp]
  exact Reads.behind hhead (reads_clauses _ d p)

theorem reads_select {s : Find} {f : Fragment} (h : select d s values = .ok f) (b : List Token) :
    Reads b f (searchPlaces d s.entries values) := by
  obtain ⟨p, hp, h⟩ := Run.outcome_bind_eq_ok.1 h
  cases h
  have hhead : slots (.text "SELECT " :: (projections s.projection ++ [.text " FROM "] ++
      d.table s.collection ++ [.text " "])) = [] := by simp
  exact reads_headed hhead hp b

theorem reads_delete {s : Search} {f : Fragment} (h : delete d s values = .ok f)
    (b : List Token) : Reads b f (searchPlaces d s.entries values) := by
  obtain ⟨p, hp, h⟩ := Run.outcome_bind_eq_ok.1 h
  cases h
  have hhead : slots (.text "DELETE FROM " :: (d.table s.collection ++ [.text " "])) = [] := by
    simp
  exact reads_headed hhead hp b

theorem reads_count {s : Search} {f : Fragment} (h : count d s values = .ok f)
    (b : List Token) : Reads b f (searchPlaces d s.entries values) := by
  obtain ⟨p, hp, h⟩ := Run.outcome_bind_eq_ok.1 h
  cases h
  have hhead : slots ([.text "SELECT COUNT(*) AS ", .name countColumn, .text " FROM "] ++
      d.table s.collection ++ [.text " "]) = [] := by simp
  exact reads_headed hhead hp b

/-! ## Assignments -/

/-- **An assignment is read** where one begins. -/
theorem reads_assignment (hb : Place.opensAssignment b = true) (a : Assignment) (v : Value) :
    Reads b (assignment a v) [(.assignment a.field.parts a.operator, v)] := by
  have hequals : (Piece.text "=").tokens.reverse = [.mark '='] := rfl
  unfold assignment
  dsimp only
  cases ho : a.operator with
  | none =>
    refine Reads.behind (slots_fieldName _) (Reads.text (Reads.slot ?_ _ v))
    have hassigned := Place.assigned_reverse_fieldName hb none a.field
    rw [hequals, List.singleton_append, Place.of, hassigned]
    rfl
  | some operator =>
    have hsign : (Piece.text operator.symbol.toString).tokens.reverse =
        [.mark operator.symbol] := by
      cases operator <;> rfl
    simp only [List.append_assoc, List.singleton_append]
    refine Reads.behind (slots_fieldName _) (Reads.text (Reads.behind (slots_fieldName _)
      (Reads.text (Reads.slot ?_ _ v))))
    rw [hequals, hsign]
    have hcalculated := Place.calculated_reverse_fieldName hb operator a.field
    cases operator <;> exact hcalculated

/-- Assignments whose values are known have their places wherever one can begin. -/
theorem reads_assignments {as : List Assignment} {fs : List Fragment}
    (h : List.Forall₂ (fun a f => ∃ v, a.value.Gives v ∧ f = assignment a v) as fs)
    (has : ∀ a ∈ as, a.value.markers = 0) :
    List.Forall₂ (fun f xs => ∀ b, Place.opensAssignment b = true → Reads b f xs) fs
      (as.map assignmentPlaces) := by
  induction h with
  | nil => exact .nil
  | @cons a f as fs ha _ ih =>
    obtain ⟨hmarker, has⟩ := List.forall_mem_cons.1 has
    obtain ⟨v, hv, rfl⟩ := ha
    refine .cons (fun b hb => ?_) (ih has)
    have hliteral := (Operand.gives_iff_eq_literal hmarker).1 hv
    simpa [assignmentPlaces, hliteral, operandPlaces, written_eq_parts] using
      reads_assignment hb a v

theorem reads_update {s : Search} {f : Fragment} (h : update d s values = .ok f) :
    Reads b f (statementPlaces d (.update s) values) := by
  obtain ⟨xs, p, hp, -, rfl⟩ := update_eq_ok.1 h
  -- the assignments that are written are those of the filled entries
  have hchanges := Plan.ofChanges_resolved (rules d "update") assignment s.entries values
  rw [hp] at hchanges
  obtain ⟨hmarkers, -, hassigned, halike, hgrows⟩ :=
    (Plan.ofChanges_eq_ok (blind_rules d "update") assigns_assignment).1 hchanges
  have hfilled := ((Entry.markersAll_eq_zero_iff _).1 (Entry.markersAll_fillAll hmarkers)).2
  rw [statementPlaces, ← places_eq_searchPlaces hmarkers halike hgrows d]
  simp only [List.append_assoc, List.singleton_append]
  refine Reads.text (Reads.behind (slots_table d _) (Reads.text ?_))
  refine Reads.append ?_ (reads_clauses _ d p)
  exact Reads.join (P := fun b => Place.opensAssignment b = true) (fun _ => rfl)
    (reads_assignments hassigned hfilled) rfl

/-! ## Rows -/

/-- A row, whatever its slots are for. -/
def rowFragment (k : ℕ → Slot) (row : List Value) : Fragment :=
  .text "(" :: (Fragment.join "," (row.mapIdx fun c v => [.slot (k c) v]) ++ [.text ")"])

/-- A row of an insert is counted once. -/
theorem row_reverse_rowFragment {r : ℕ} {rest : List Token} (hb : Place.row b = some (r, rest))
    (k : ℕ → Slot) (row : List Value) :
    Place.row ((tokens (rowFragment k row)).reverse ++ b) = some (r + 1, rest) := by
  have hskip : ∀ ts : List Token, (∀ t ∈ ts, t = .mark ',' ∨ ∃ v, t = .value v) → ∀ b,
      Place.row (ts ++ b) = Place.row b := by
    intro ts hts b
    induction ts with
    | nil => rfl
    | cons t ts ih =>
      obtain ⟨ht, hrest⟩ := List.forall_mem_cons.1 hts
      obtain rfl | ⟨v, rfl⟩ := ht
      · exact ih hrest
      · exact ih hrest
  have hvalues : ∀ t ∈ tokens (Fragment.join "," (row.mapIdx fun c v => [.slot (k c) v])),
      t = .mark ',' ∨ ∃ v, t = .value v := by
    intro t ht
    rcases piecewise_tokens.mem_join ht with ht | ⟨f, hf, ht⟩
    · exact .inl (List.mem_singleton.1 ht)
    · obtain ⟨c, hc, rfl⟩ := List.mem_mapIdx.1 hf
      exact .inr ⟨_, List.mem_singleton.1 ht⟩
  have hopen : (Piece.text "(").tokens = [.mark '('] := rfl
  have hclose : tokens [.text ")"] = [.mark ')'] := rfl
  rw [rowFragment, tokens_cons, tokens_append, hopen, hclose]
  simp only [List.reverse_append, List.reverse_cons, List.reverse_nil, List.nil_append,
    List.append_assoc, List.cons_append]
  have hrow : Place.row ((tokens (Fragment.join ","
      (row.mapIdx fun c v => [.slot (k c) v]))).reverse ++ .mark '(' :: b) = some (r + 1, rest) := by
    rw [hskip _ fun t ht => hvalues t (List.mem_reverse.1 ht)]
    change (Place.row b).map _ = _
    rw [hb]
    rfl
  exact hrow

/-- **The cells of a row** behind rows that were counted. -/
theorem reads_rowFragment {r : ℕ} {rest : List Token} (hb : Place.row b = some (r, rest))
    (hin : ∀ ts, b ≠ .word "IN" :: ts) {names : List (List String)}
    (hnames : (SearchCondition.dropMark ')' rest).bind (Place.columns [] []) = some names)
    (k : ℕ → Slot) {row : List Value} (hrow : row.length ≤ names.length) :
    Reads b (rowFragment k row) (cellPlaces names r row) := by
  have hcell : ∀ i b', i < names.length → Place.index b' = some (i, b) →
      Place.of b' = some (.cell r i (names[i]?.getD [])) := by
    intro i b' hi hindex
    have hlisted : Place.listed b' = Place.celled i b := by
      rw [Place.listed, hindex, Option.bind_some]
      dsimp only
      split
      · next ts => exact absurd rfl (hin ts)
      · rfl
    rw [Place.of_eq_listed hindex, hlisted, Place.celled, hb, Option.bind_some]
    obtain ⟨ts, hts, hcolumns⟩ := Option.bind_eq_some_iff.1 hnames
    simp [hts, hcolumns, List.getElem?_eq_getElem hi]
  have hvalues := reads_values hcell row k 0 (.mark '(' :: b) (by omega) rfl
  simp only [Nat.zero_add] at hvalues
  exact Reads.text (Reads.before hvalues rfl)

/-- **The cells of rows in a row**, from any row on. -/
theorem reads_rowFragments {rest : List Token} {names : List (List String)}
    (hnames : (SearchCondition.dropMark ')' rest).bind (Place.columns [] []) = some names) :
    ∀ {rows : List (List Value)}, (∀ row ∈ rows, row.length ≤ names.length) →
      ∀ (k : ℕ → ℕ → Slot) (r : ℕ) (b : List Token), Place.row b = some (r, rest) →
        (∀ ts, b ≠ .word "IN" :: ts) →
        Reads b (Fragment.join "," (rows.mapIdx fun i => rowFragment (k i)))
          (rows.mapIdx fun i => cellPlaces names (r + i)).flatten := by
  intro rows hrows
  induction rows with
  | nil => exact fun _ _ _ _ _ => rfl
  | cons row rows ih =>
    intro k r b hb hin
    obtain ⟨hrow, hrest⟩ := List.forall_mem_cons.1 hrows
    have hfirst := reads_rowFragment hb hin hnames (k 0) hrow
    rw [List.mapIdx_cons, List.mapIdx_cons, List.flatten_cons]
    cases rows with
    | nil =>
      rw [List.mapIdx_nil, List.mapIdx_nil, join_singleton, List.flatten_nil, List.append_nil]
      exact hfirst
    | cons row' rows =>
      -- behind the first row and a comma one row more is counted
      have hnext : Place.row (.mark ',' :: ((tokens (rowFragment (k 0) row)).reverse ++ b)) =
          some (r + 1, rest) := row_reverse_rowFragment hb (k 0) row
      have hcells := ih hrest (fun i => k (i + 1)) (r + 1) _ hnext (by simp)
      have hnumbers : (fun i => cellPlaces names (r + (i + 1))) =
          fun i => cellPlaces names (r + 1 + i) := by
        funext i
        rw [Nat.add_assoc, Nat.add_comm 1 i]
      rw [hnumbers]
      rw [List.mapIdx_cons] at hcells ⊢
      rw [join_cons_cons]
      exact hfirst.append (Reads.text hcells)

/-- **The columns of an insert are read backwards** from the end of their list. -/
theorem columns_reverse {names : List (List String)} (hnames : names ≠ [])
    (hne : ∀ ns ∈ names, ns ≠ []) (b : List Token) :
    Place.columns [] []
      ((tokens (Fragment.join "," (names.map dotted))).reverse ++ .mark '(' :: b) =
        some names := by
  -- the columns behind the first one are read before it
  have hfirst : ∀ (nss : List (List String)) (ns : List String), (∀ x ∈ nss, x ≠ []) →
      ∀ b, Place.columns [] []
        ((tokens (Fragment.join "," ((ns :: nss).map dotted))).reverse ++ b) =
          Place.columns [] nss ((tokens (dotted ns)).reverse ++ b) := by
    intro nss
    induction nss with
    | nil =>
      intro ns _ b
      rw [List.map_singleton, join_singleton]
    | cons ms nss ih =>
      intro ns hne b
      obtain ⟨hms, hnss⟩ := List.forall_mem_cons.1 hne
      obtain ⟨m, ms, rfl⟩ := List.exists_cons_of_ne_nil hms
      have hcomma : (Piece.text ",").tokens = [.mark ','] := rfl
      have hrest := ih (m :: ms) hnss (.mark ',' :: ((tokens (dotted ns)).reverse ++ b))
      rw [reverse_dotted (k := fun names => Place.columns names nss) (fun _ _ _ => rfl)] at hrest
      rw [List.map_cons, List.map_cons, join_cons_cons, ← List.map_cons, tokens_append,
        tokens_cons, hcomma]
      simp only [List.reverse_append, List.reverse_cons, List.nil_append, List.append_assoc,
        List.cons_append]
      rw [hrest, Place.columns, List.append_nil]
  obtain ⟨ns, nss, rfl⟩ := List.exists_cons_of_ne_nil hnames
  obtain ⟨hns, hnss⟩ := List.forall_mem_cons.1 hne
  obtain ⟨n, ns, rfl⟩ := List.exists_cons_of_ne_nil hns
  rw [hfirst nss _ hnss, reverse_dotted (k := fun names => Place.columns names nss)
    (fun _ _ _ => rfl), Place.columns, List.append_nil]

/-- **The cells of rows behind their columns.** -/
theorem reads_rowList {names : List (List String)} (hnames : names ≠ [])
    (hne : ∀ ns ∈ names, ns ≠ []) {rows : List (List Value)}
    (hrows : ∀ row ∈ rows, row.length ≤ names.length) (b : List Token) :
    Reads b (rowList (names.map dotted) rows) (rows.mapIdx (cellPlaces names)).flatten := by
  have hsilent : slots (Fragment.join "," (names.map dotted)) = [] := by
    simp [List.flatMap_map, slots_dotted]
  have hvalues : (Piece.text ") VALUES ").tokens.reverse = [.word "VALUES", .mark ')'] := rfl
  have hopen : (Piece.text " (").tokens.reverse = [.mark '('] := rfl
  rw [rowList]
  simp only [List.append_assoc, List.singleton_append]
  refine Reads.text (Reads.behind hsilent (Reads.text (Reads.before ?_ rfl)))
  rw [hvalues, hopen]
  have hcolumns : (SearchCondition.dropMark ')' (.mark ')' ::
      ((tokens (Fragment.join "," (names.map dotted))).reverse ++ .mark '(' :: b))).bind
        (Place.columns [] []) = some names := columns_reverse hnames hne b
  have hcells := reads_rowFragments hcolumns hrows Slot.cell 0
    (.word "VALUES" :: .mark ')' ::
      ((tokens (Fragment.join "," (names.map dotted))).reverse ++ .mark '(' :: b)) rfl (by simp)
  simp only [Nat.zero_add] at hcells
  exact hcells

theorem reads_insert {s : Insert} {f : Fragment} (h : insert d s values = .ok f) (b : List Token) :
    Reads b f (insertPlaces s values) := by
  obtain ⟨rows, hrows, rfl⟩ := insert_eq_ok.1 h
  have hcolumns : (s.columns.map fun c => [c.field]) ≠ [] := by
    have hpositive := (Insert.exists_rows_iff.1 ⟨rows, hrows⟩).columns
    simpa using List.ne_nil_of_length_pos hpositive
  have hwidth : ∀ row ∈ rows, row.length ≤ (s.columns.map fun c => [c.field]).length :=
    fun row hrow => by rw [List.length_map, Insert.length_of_mem_rows hrows hrow]
  have hlist := reads_rowList hcolumns (by simp) hwidth
    ((tokens (d.table s.collection)).reverse ++ ((Piece.text "INSERT INTO ").tokens.reverse ++ b))
  have hnames : (s.columns.map fun c => [Piece.name c.field]) =
      (s.columns.map fun c => [c.field]).map dotted := by
    rw [List.map_map]
    exact List.map_congr_left fun c _ => name_eq_dotted c.field
  rw [← cellPlaces_of_rows hrows, hnames]
  exact Reads.text (Reads.behind (slots_table d _) hlist)

/-- The assignments of a replace are the cells of its row. -/
theorem replacePlaces_of_gives {k : ℕ → List String → Place} {as : List Assignment}
    {columns : List (FieldRef × Value)}
    (h : List.Forall₂ (fun a x => x.1 = a.field ∧ a.value.Gives x.2) as columns)
    (has : ∀ a ∈ as, a.value.markers = 0) :
    (as.mapIdx fun i a => operandPlaces (k i (written a.field)) a.value).flatten =
      columns.mapIdx fun i x => (k i x.1.parts, x.2) := by
  induction h generalizing k with
  | nil => rfl
  | @cons a x as columns hx _ ih =>
    obtain ⟨ha, has⟩ := List.forall_mem_cons.1 has
    have hvalue := (Operand.gives_iff_eq_literal ha).1 hx.2
    rw [List.mapIdx_cons, List.mapIdx_cons, List.flatten_cons, ih (k := fun i => k (i + 1)) has,
      hvalue, operandPlaces, written_eq_parts, hx.1]
    rfl

theorem reads_replace {s : Search} {f : Fragment} (h : replace d s values = .ok f)
    (b : List Token) : Reads b f (replacePlaces s.entries values) := by
  obtain ⟨hmarkers, h⟩ := (substitutes_replace d s).eq_ok_iff.1 h
  obtain ⟨-, columns, rest, hcolumns, hne, rfl⟩ := replace_eq_ok.1 h
  have hfilled := ((Entry.markersAll_eq_zero_iff _).1 (Entry.markersAll_fillAll hmarkers)).2
  have hgives : List.Forall₂ (fun a x => x.1 = a.field ∧ a.value.Gives x.2)
      (Entry.partsAll (Entry.fillAll values s.entries)).assignments columns :=
    forall₂_of_replacements hcolumns
  have hplaces := replacePlaces_of_gives (k := .cell 0) hgives hfilled
  have hparts : ∀ ns ∈ columns.map (·.1.parts), ns ≠ [] := by
    intro ns hns
    obtain ⟨x, -, rfl⟩ := List.mem_map.1 hns
    obtain ⟨n, rest, hparts⟩ := Place.parts_eq_cons x.1
    simp [hparts]
  have hwidth : ∀ row ∈ [columns.map Prod.snd],
      row.length ≤ (columns.map fun c => c.1.parts).length := by simp
  have hlist := reads_rowList (by simpa using hne) hparts hwidth
    ((tokens (d.table s.collection)).reverse ++ ((Piece.text "REPLACE INTO ").tokens.reverse ++ b))
  have hnames : columns.map (fun c => fieldName c.1) = (columns.map (·.1.parts)).map dotted := by
    rw [List.map_map]
    rfl
  have hcells : ([columns.map Prod.snd].mapIdx (cellPlaces (columns.map (·.1.parts)))).flatten =
      columns.mapIdx fun i x => (.cell 0 i x.1.parts, x.2) := by
    refine List.ext_getElem (by simp [cellPlaces]) fun i hi _ => ?_
    have hcolumn : i < columns.length := by simpa [cellPlaces] using hi
    simp [cellPlaces, List.getElem?_eq_getElem hcolumn]
  rw [hcells] at hlist
  rw [replacePlaces, hplaces, hnames]
  exact Reads.text (Reads.behind (slots_table d _) hlist)

/-! ## Tables -/

/-- **The default of a column is read**, whatever the text of its type. -/
theorem reads_columnType (d : Dialect) (c : Column) (t : NativeType) (b : List Token) :
    Reads (.name c.field :: b) (columnType d c t) (defaultPlaces d (.column c)) := by
  have hserial : isSerial d c = true ↔
      .autoIncrement ∈ c.options ∧ d.autoIncrement = .serial := by
    simp [isSerial, Column.has]
  rw [columnType, defaultPlaces]
  by_cases hs : isSerial d c = true
  · have hnone : ¬ (d.defaultStyle = .bound ∧
        ¬ (.autoIncrement ∈ c.options ∧ d.autoIncrement = .serial)) := fun h => h.2 (hserial.1 hs)
    rw [if_pos hs, if_neg hnone]
    exact Reads.silent rfl
  · rw [if_neg hs]
    cases hc : c.default with
    | none =>
      rw [Option.toList_none, List.flatMap_nil, List.map_nil, ite_self]
      exact Reads.silent rfl
    | some v =>
      rw [Option.toList_some, List.flatMap_singleton]
      cases hd : d.defaultStyle with
      | bound =>
        -- the words of a type hold no name, so that the nearest one is the column's
        have hname : (((Piece.text (t.render c.size)).tokens.reverse ++
            .name c.field :: b).findSome? Token.name?) = some c.field := by
          rw [List.findSome?_append, List.findSome?_eq_none_iff.2 fun x hx => ?_]
          · rfl
          · obtain ⟨w, rfl⟩ | ⟨m, rfl⟩ := token_of_mem_tokens_text (List.mem_reverse.1 hx) <;> rfl
        have hplace : Place.of (.word "DEFAULT" :: ((Piece.text (t.render c.size)).tokens.reverse ++
            .name c.field :: b)) = some (.default c.field) := by
          rw [Place.of, hname]
          rfl
        rw [if_pos ⟨rfl, mt hserial.2 hs⟩, defaultValue, hd]
        exact Reads.text (Reads.text (Reads.slot hplace _ v))
      | inline =>
        rw [if_neg (by simp)]
        exact Reads.silent (slots_defaultValue hd c.dataType v)

/-- **A line of a definition binds its default**, and nothing else. -/
theorem reads_definition {collection : CollectionRef} {x : Definition} {f : Fragment}
    (h : definition d collection x = .ok f) (b : List Token) : Reads b f (defaultPlaces d x) := by
  cases x with
  | foreignKey field key =>
    have hkey : foreignKey d collection field key = .ok f := h
    exact Reads.silent (slots_foreignKey hkey)
  | column c =>
    change columnDefinition d collection c = .ok f at h
    unfold columnDefinition at h
    split at h
    · cases h
    · cases ht : d.types c.dataType with
      | none => simp [ht] at h
      | some t =>
        simp only [ht, Except.ok.injEq] at h
        subst h
        refine Reads.before (Reads.before (Reads.before ?_ (slots_columnOptions d c.options))
          (slots_optional _ _)) (slots_inlineIndexes d collection c)
        have hname : tokens [.name c.field, .text " "] = [.name c.field] := by
          rw [tokens_cons, SearchCondition.tokens_name]
          rfl
        refine Reads.behind (f := [.name c.field, .text " "]) rfl ?_
        rw [hname]
        exact reads_columnType d c t b

/-- The search that fills a new table. -/
theorem reads_included (hd : d.Readable) {s : Create} {f : Fragment}
    (h : included d s values = .ok f) (b : List Token) : Reads b f
      (s.included.toList.flatMap fun find => searchPlaces d find.entries values) := by
  unfold included at h
  cases hi : s.included with
  | none =>
    simp only [hi, Except.ok.injEq] at h
    subst h
    exact Reads.silent rfl
  | some find =>
    simp only [hi] at h
    split at h
    · cases h
    · obtain ⟨-, -, h⟩ := Run.outcome_bind_eq_ok.1 h
      obtain ⟨g, hg, h⟩ := Run.outcome_bind_eq_ok.1 h
      cases h
      rw [Option.toList_some, List.flatMap_singleton]
      exact Reads.text ((reads_select hg _).trimEnd hd.quotes)

theorem reads_create (hd : d.Readable) {s : Create} (hs : s.engine = none) {q : Query}
    (h : create d s values = .ok q) :
    Reads b q.command (statementPlaces d (.create s) values) ∧
      ∀ f ∈ q.additional, slots f = [] := by
  obtain ⟨lines, fill, hlines, hfill, rfl⟩ := create_eq_ok h
  have hengine : engine d s = [] := by simp [engine, hs]
  have hdefinitions : List.Forall₂ (fun f xs => ∀ b, True → Reads b f xs) lines
      (s.definitions.map (defaultPlaces d)) := by
    refine List.forall₂_map_right_iff.2 (List.Forall₂.flip ?_)
    exact hlines.imp fun x f hx b _ => reads_definition hx b
  have hjoin (b : List Token) : Reads b (Fragment.join "," lines)
      (s.definitions.flatMap (defaultPlaces d)) :=
    Reads.join (P := fun _ => True) (fun _ => trivial) hdefinitions trivial
  refine ⟨?_, fun f hf => ?_⟩
  · rw [hengine, statementPlaces]
    simp only [List.append_assoc, List.singleton_append]
    refine Reads.text (Reads.behind (slots_table d _) (Reads.text ?_))
    exact (hjoin _).append (Reads.text (Reads.before (reads_included hd hfill _) rfl))
  · obtain ⟨x, -, hx⟩ := List.mem_flatMap.1 hf
    cases x with
    | column c => exact slots_separateIndexes d s.collection c f hx
    | foreignKey field key => cases hx

/-! ## All statements -/

/-- **The placeholders of a command have the places that its statement asks for**, and
no other command has a placeholder. -/
theorem reads_render (hd : d.Readable) {s : Statement} (hs : s.PlainEngine) {q : Query}
    (h : render d s values = .ok q) :
    Reads [] q.command (statementPlaces d s values) ∧ ∀ f ∈ q.additional, slots f = [] := by
  have hsingle : ∀ {x : Except QueryError Fragment}, x.map (single d) = .ok q →
      (∀ f, x = .ok f → Reads [] f (statementPlaces d s values)) →
        Reads [] q.command (statementPlaces d s values) ∧ ∀ f ∈ q.additional, slots f = [] := by
    intro x hx hreads
    obtain ⟨f, hf, rfl⟩ := Run.outcome_map_eq_ok.1 hx
    exact ⟨hreads f hf, by simp [single]⟩
  cases s with
  | find s => exact hsingle h fun f hf => reads_select hf []
  | insert s => exact hsingle h fun f hf => reads_insert hf []
  | update s => exact hsingle h fun f => reads_update
  | delete s => exact hsingle h fun f hf => reads_delete hf []
  | replace s => exact hsingle h fun f hf => reads_replace hf []
  | create s => exact reads_create hd (hs s rfl) h
  | drop target => exact hsingle h fun f hf => Reads.silent (slots_drop hf)
  | clear c =>
    cases h
    exact ⟨Reads.silent (by simp [single, clear]), by simp [single]⟩
  | count s => exact hsingle h fun f hf => reads_count hf []

/-- **Every placeholder has the value of its place.** The text of a command and its
values, which may as well be collected apart, are read back: from the text before each
placeholder outside of names and literals, what its value is for. This gives the places
that the statement asks for in order, each with the value asked for there. So there are
as many values as placeholders, and the commands that follow hold no placeholder. -/
theorem placeholders_match_places (hd : d ∈ Dialect.builtin) {s : Statement}
    (hs : s.PlainEngine) {q : Query} (h : render d s values = .ok q) :
    Apart.compile d s values = .ok ⟨q.text, q.params, q.additionalTexts⟩ ∧
      readPlaces d.quotes q.text.toList q.params = some (statementPlaces d s values) ∧
      q.params = (statementPlaces d s values).map Prod.snd ∧
      ∀ t ∈ q.additionalTexts, placeholders d.quotes (t.toList.map (·, ())) = some [] := by
  have hreadable := Dialect.readable_of_builtin hd
  obtain ⟨hcommand, hadditional⟩ := legible_render hreadable hs h
  obtain ⟨hreads, hnone⟩ := reads_render hreadable hs h
  have hquotes := quotes_render h
  refine ⟨?_, ?_, hreads.map_snd.symm, fun t ht => ?_⟩
  · rw [Apart.compile_eq hreadable, h]
    rfl
  · have htokens := readTokens_write hreadable.quotes hcommand
    rw [readPlaces, Query.text, Query.params, String.toList_ofList, hquotes, htokens]
    exact hreads
  · obtain ⟨f, hf, rfl⟩ := List.mem_map.1 ht
    rw [String.toList_ofList, hquotes]
    exact placeholders_of_no_slots hreadable.quotes (hadditional f hf) (hnone f hf)

/-- An update whose window stands before its assignments and tests, of which each takes
a runtime value in turn, in a dialect that writes the offset before the limit. -/
def windowFirst : Search where
  collection := ⟨"shop", "items"⟩
  entries :=
    [.limit ⟨5, 10⟩,
      .set ⟨.plain "a?", .prepared, none⟩,
      .operation .not [.operation .or [
        .condition ⟨.between, ⟨.plain "b]", none⟩, .prepared, some (.literal (.int 4))⟩,
        .condition ⟨.oneOf, ⟨.plain "c", none⟩, .literal (.list [.int 1, .int 2]), none⟩]],
      .set ⟨.plain "n", .prepared, some .add⟩]

theorem placeholders_of_windowFirst_match_places :
    ∃ q, render .mssql (.update windowFirst) [.int 7, .int 3, .int 8] = .ok q ∧
      q.text = "UPDATE [shop].[items] SET [a?]=?,[n]=[n]+? WHERE NOT ([b]]] BETWEEN ? AND ?" ++
        " OR [c] IN (?,?)) ORDER BY (SELECT NULL) OFFSET ? ROWS FETCH NEXT ? ROWS ONLY" ∧
      q.params = [.int 7, .int 8, .int 3, .int 4, .int 1, .int 2, .int 10, .int 5] ∧
      Apart.compile .mssql (.update windowFirst) [.int 7, .int 3, .int 8] =
        .ok ⟨q.text, q.params, []⟩ ∧
      readPlaces Dialect.mssql.quotes q.text.toList q.params =
        some [(.assignment ["a?"] none, .int 7), (.assignment ["n"] (some .add), .int 8),
          (.lowerBound (none, ["b]"]), .int 3), (.upperBound (none, ["b]"]), .int 4),
          (.item (none, ["c"]) 0, .int 1), (.item (none, ["c"]) 1, .int 2),
          (.offset, .int 10), (.limit, .int 5)] := by
  have hd : Dialect.mssql ∈ Dialect.builtin := by simp [Dialect.builtin]
  have hplain : (Statement.update windowFirst).PlainEngine := by rintro c ⟨⟩
  have hq : render .mssql (.update windowFirst) [.int 7, .int 3, .int 8] = .ok _ := rfl
  obtain ⟨hcompile, hplaces, -, -⟩ := placeholders_match_places hd hplain hq
  exact ⟨_, hq, by decide +kernel, rfl, hcompile, hplaces⟩

/-- The row and the column of a cell are read from the text as well. -/
example : readPlaces ⟨'[', ']'⟩ "INSERT INTO [t] ([x],[y?]) VALUES (?,?),(?,?);".toList
    [.int 1, .int 2, .int 3, .int 4] =
      some [(.cell 0 0 ["x"], .int 1), (.cell 0 1 ["y?"], .int 2), (.cell 1 0 ["x"], .int 3),
        (.cell 1 1 ["y?"], .int 4)] := rfl

end Sql

end QueryLayer
