import QueryLayer.Proofs.Sql.LegibleStatement
import QueryLayer.Proofs.Walk.Parts

/-!
# What stands between quotes

Everything a command holds between quotes is listed from the statement alone:
names of databases, collections, fields, aliases and constraints, and the texts
of defaults that are written as literals. The quoted pieces of a command are
those of the list, in order (`quoted_render`).
-/

namespace QueryLayer

namespace Sql

open Fragment

variable {d : Dialect} {values : List Value}

/-! ## The lists -/

/-- What stands between one pair of quotes. -/
abbrev Quoted := QuoteKind × List Char

/-- A name between quotes. -/
def quotedName (n : String) : Quoted := (.name, n.toList)

/-- The parts of a field. -/
def fieldNames (f : FieldRef) : List Quoted := f.parts.map quotedName

/-- The parts of the name of a table. -/
def tableNames (d : Dialect) (c : CollectionRef) : List Quoted :=
  match d.environment with
  | .server => [quotedName c.database, quotedName c.name]
  | .embedded => [quotedName c.name]

/-- A column of a joined table. -/
def columnNames (d : Dialect) (c : Option CollectionRef) (column : String) : List Quoted :=
  c.toList.flatMap (tableNames d) ++ [quotedName column]

/-- A join: the table, and both sides of each equality. -/
def joinNames (d : Dialect) (j : Join) : List Quoted :=
  tableNames d j.collection ++ j.pairs.flatMap fun p =>
    columnNames d (some p.collection1) p.column1 ++ columnNames d p.collection2 p.column2

/-- The clauses of a search: the joins, then the fields of its conditions as they
stand, then the group keys and the sort keys. -/
def clauseNames (d : Dialect) (es : List Entry) : List Quoted :=
  (Entry.partsAll es).joins.flatMap (joinNames d) ++
    (Formula.leavesAll (Entry.formulasAll es)).flatMap (fun c => fieldNames c.target.field) ++
    (Entry.partsAll es).groups.flatMap (fun t => fieldNames t.field) ++
    (Entry.partsAll es).sorts.flatMap fun k => fieldNames k.target.field

/-- A column of the result, with its alias. -/
def projectionNames (p : Projection) : List Quoted :=
  fieldNames p.target.field ++ p.label.toList.map quotedName

/-- A find. -/
def findNames (d : Dialect) (s : Find) : List Quoted :=
  s.projection.flatMap projectionNames ++ tableNames d s.collection ++ clauseNames d s.entries

/-- An assignment. A calculation names its field twice. -/
def assignmentNames (a : Assignment) : List Quoted :=
  fieldNames a.field ++ if a.operator.isSome then fieldNames a.field else []

mutual

/-- The texts in the literal of a value. -/
def literalTexts : Value → List Quoted
  | .text s => [(.literal, s.toList)]
  | .list vs => literalTextsAll vs
  | .blob bytes => [(.literal, bytes.flatMap Value.hexByte)]
  | _ => []

/-- The texts in the literals of several values. -/
def literalTextsAll : List Value → List Quoted
  | [] => []
  | v :: vs => literalTexts v ++ literalTextsAll vs

end

/-- A default that is written as a literal: as one text in a column of text, and
otherwise as the literal of its value. -/
def defaultTexts (d : Dialect) (c : Column) (v : Value) : List Quoted :=
  match d.defaultStyle with
  | .bound => []
  | .inline =>
    if c.dataType.isTextual then v.textContent.toList.map (.literal, ·) else literalTexts v

/-- The endings of the names of the indexes of a column. -/
def indexEndings (c : Column) : List String := c.options.filterMap fun o => (indexKind o).map Prod.fst

/-- A line of the definition of a table. -/
def definitionNames (d : Dialect) (collection : CollectionRef) : Definition → List Quoted
  | .column c =>
    quotedName c.field ::
      ((if isSerial d c then [] else c.default.toList.flatMap (defaultTexts d c)) ++
        match d.indexStyle with
        | .inline => (indexEndings c).flatMap fun ending =>
          [quotedName (constraintName collection c.field ending), quotedName c.field]
        | .separate => [])
  | .foreignKey field key =>
    [quotedName (constraintName collection field "fk"), quotedName field] ++
      tableNames d key.collection ++ [quotedName key.field]

/-- The commands that a line adds after the table: one for each index that is
not part of the table. -/
def followingNames (d : Dialect) (collection : CollectionRef) : Definition → List (List Quoted)
  | .column c =>
    match d.indexStyle with
    | .inline => []
    | .separate => (indexEndings c).map fun ending =>
      quotedName (constraintName collection c.field ending) ::
        (tableNames d collection ++ [quotedName c.field])
  | .foreignKey _ _ => []

/-- What the command of a statement holds between quotes. -/
def commandNames (d : Dialect) : Statement → List Quoted
  | .find s => findNames d s
  | .delete s => tableNames d s.collection ++ clauseNames d s.entries
  | .count s => quotedName countColumn :: (tableNames d s.collection ++ clauseNames d s.entries)
  | .update s =>
    tableNames d s.collection ++ (Entry.partsAll s.entries).assignments.flatMap assignmentNames ++
      clauseNames d s.entries
  | .insert s => tableNames d s.collection ++ s.columns.map fun c => quotedName c.field
  | .replace s =>
    tableNames d s.collection ++
      (Entry.partsAll s.entries).assignments.flatMap fun a => fieldNames a.field
  | .create s =>
    tableNames d s.collection ++ s.definitions.flatMap (definitionNames d s.collection) ++
      s.included.toList.flatMap (findNames d)
  | .drop (.collection c) => tableNames d c
  | .drop (.database name) => [quotedName name]
  | .clear c => tableNames d c

/-- What the commands that follow it hold between quotes. -/
def additionalNames (d : Dialect) : Statement → List (List Quoted)
  | .create s => s.definitions.flatMap (followingNames d s.collection)
  | _ => []

/-! ## The quoted pieces of a fragment -/

namespace Piece

/-- What a piece holds between quotes. -/
def quoted? : Piece → Option Quoted
  | .name n => some (quotedName n)
  | .literal content => some (.literal, content)
  | _ => none

end Piece

namespace Fragment

/-- What a fragment holds between quotes. -/
def quoted (f : Fragment) : List Quoted := f.filterMap Piece.quoted?

@[simp] theorem quoted_nil : quoted [] = [] := rfl

theorem piecewise_quoted : Piecewise quoted := piecewise_filterMap Piece.quoted?

@[simp] theorem quoted_append (f g : Fragment) : quoted (f ++ g) = quoted f ++ quoted g :=
  piecewise_quoted.append f g

@[simp] theorem quoted_text_cons (s : String) (f : Fragment) : quoted (.text s :: f) = quoted f := rfl

@[simp] theorem quoted_name_cons (n : String) (f : Fragment) :
    quoted (.name n :: f) = quotedName n :: quoted f := rfl

@[simp] theorem quoted_literal_cons (content : List Char) (f : Fragment) :
    quoted (.literal content :: f) = (.literal, content) :: quoted f := rfl

@[simp] theorem quoted_slot_cons (s : Slot) (v : Value) (f : Fragment) :
    quoted (.slot s v :: f) = quoted f := rfl

@[simp] theorem quoted_join (mark : String) (fs : List Fragment) :
    quoted (join mark fs) = fs.flatMap quoted :=
  piecewise_quoted.join_of_silent rfl fs

end Fragment

/-! ## Clauses -/

@[simp] theorem quoted_fieldName (f : FieldRef) : quoted (fieldName f) = fieldNames f := by
  simp [fieldName, fieldNames, List.flatMap_map, ← List.map_eq_flatMap]

@[simp] theorem quoted_target (t : Target) : quoted (target t) = fieldNames t.field := by
  obtain ⟨field, aggregation⟩ := t
  cases aggregation <;> simp [target]

@[simp] theorem quoted_table (d : Dialect) (c : CollectionRef) :
    quoted (d.table c) = tableNames d c := by
  unfold Dialect.table tableNames
  cases d.environment <;> rfl

@[simp] theorem quoted_negation (negated : Bool) : quoted (negation negated) = [] := by
  cases negated <;> rfl

/-- The items of a list are bound, and none is quoted. -/
@[simp] theorem quoted_itemSlots (vs : List Value) : quoted (itemSlots vs) = [] := by
  rw [itemSlots, quoted_join, flatMap_mapIdx_of_const (h := fun _ => []) fun _ _ => rfl]
  simp

@[simp] theorem quoted_test (negated : Bool) (t : Test) :
    quoted (test negated t) = fieldNames t.target.field := by
  obtain ⟨field, criterion⟩ := t
  cases criterion <;> simp [test, comparison]

mutual

/-- Brackets and negations keep the order of the tests. -/
theorem quoted_operands : ∀ (negated : Bool) (p : Predicate),
    (operands negated p).flatMap quoted =
      p.formula.leaves.flatMap fun t => fieldNames t.target.field
  | negated, .test t => by simp [operands, Predicate.formula, Formula.leaves]
  | negated, .not p => by
    rw [operands, Predicate.formula, Formula.leaves]
    exact quoted_operands (!negated) p
  | negated, .all ps => by
    simp [operands, bracket, Predicate.formula, Formula.leaves, quoted_operandsAll false ps]
  | negated, .any ps => by
    simp [operands, bracket, Predicate.formula, Formula.leaves, quoted_operandsAll false ps]

theorem quoted_operandsAll : ∀ (negated : Bool) (ps : List Predicate),
    (operandsAll negated ps).flatMap quoted =
      (Formula.leavesAll (Predicate.formulas ps)).flatMap fun t => fieldNames t.target.field
  | _, [] => rfl
  | negated, p :: ps => by
    rw [operandsAll, List.flatMap_append, quoted_operands negated p, quoted_operandsAll negated ps,
      Predicate.formulas, Formula.leavesAll, List.flatMap_append]

end

@[simp] theorem quoted_filter (ps : List Predicate) :
    quoted (filter ps) = (Predicate.tests ps).flatMap fun t => fieldNames t.target.field := by
  have hoperands := quoted_operandsAll false ps
  unfold filter
  split
  · next h => simpa [h, Predicate.tests] using hoperands
  · next h => simpa [Predicate.tests] using hoperands

@[simp] theorem quoted_column (d : Dialect) (c : Option CollectionRef) (name : String) :
    quoted (column d c name) = columnNames d c name := by
  cases c <;> simp [column, columnNames]

@[simp] theorem quoted_joins (d : Dialect) (js : List Join) :
    quoted (joins d js) = js.flatMap (joinNames d) := by
  have hpairs : ∀ pairs : List JoinPair, quoted (joinPairs d pairs) = pairs.flatMap fun p =>
      columnNames d (some p.collection1) p.column1 ++ columnNames d p.collection2 p.column2 := by
    intro pairs
    rw [joinPairs, piecewise_quoted.flatten]
    exact flatMap_mapIdx_of_const (fun _ _ => by simp) pairs
  have hjoin : ∀ j : Join, quoted (join d j) = joinNames d j := by
    intro j
    rw [join, quoted_text_cons, quoted_append, quoted_table, hpairs, joinNames]
  simp [joins, List.flatMap_map, hjoin]

@[simp] theorem quoted_groupBy (ts : List Target) :
    quoted (groupBy ts) = ts.flatMap fun t => fieldNames t.field := by
  cases ts <;> simp [groupBy, List.flatMap_map]

@[simp] theorem quoted_orderBy (d : Dialect) (c : Clauses) :
    quoted (orderBy d c) = c.sorts.flatMap fun k => fieldNames k.target.field := by
  unfold orderBy
  split
  · next h => split <;> simp [h]
  · simp [sortKey, List.flatMap_map]

@[simp] theorem quoted_window (d : Dialect) (w : Option Window) : quoted (window d w) = [] := by
  cases w with
  | none => rfl
  | some w =>
    unfold window
    cases d.limitStyle <;> rfl

/-- The tests of a plan are on the fields of the conditions, in order. -/
theorem targets_of_alike {es : List Entry} {ps : List Predicate}
    (h : Formula.AlikeAll Condition.Yields (Entry.formulasAll es) (Predicate.formulas ps)) :
    (Predicate.tests ps).map Test.target =
      (Formula.leavesAll (Entry.formulasAll es)).map Condition.target := by
  have hleaves := h.forall₂_leavesAll.imp fun _ _ hy => hy.1
  rw [← List.forall₂_eq_eq_eq, List.forall₂_map_left_iff, List.forall₂_map_right_iff]
  exact hleaves.flip

/-- **The clauses of a plan hold the names of its entries.** -/
theorem quoted_clauses {r : Rules} {es : List Entry} {p : Plan} (hparts : p.HasParts es)
    (hp : p.IsOf r es values) : quoted (clauses d p) = clauseNames d es := by
  have htargets := targets_of_alike hp.alike
  have htests : ((Predicate.tests p.predicates).flatMap fun t => fieldNames t.target.field) =
      (Formula.leavesAll (Entry.formulasAll es)).flatMap fun c => fieldNames c.target.field := by
    have hmap := congrArg (List.flatMap fun t : Target => fieldNames t.field) htargets
    simpa [List.flatMap_map] using hmap
  simp [clauses, clauseNames, htests, hparts.joins, hparts.groups, hparts.sorts]

/-! ## Searches and changes -/

theorem quoted_projections (ps : List Projection) :
    quoted (projections ps) = ps.flatMap projectionNames := by
  have hone : ∀ p, quoted (projection p) = projectionNames p := by
    rintro ⟨t, label⟩
    cases label <;> simp [projection, projectionNames]
  cases ps <;> simp [projections, List.flatMap_map, hone]

theorem quoted_select {s : Find} {f : Fragment} (h : select d s values = .ok f) :
    quoted f = findNames d s := by
  obtain ⟨p, hp, h⟩ := Run.outcome_bind_eq_ok.1 h
  cases h
  simp [findNames, quoted_projections, quoted_clauses (Plan.hasParts_of_ofEntries hp) (.inl hp)]

theorem quoted_delete {s : Search} {f : Fragment} (h : delete d s values = .ok f) :
    quoted f = commandNames d (.delete s) := by
  obtain ⟨p, hp, h⟩ := Run.outcome_bind_eq_ok.1 h
  cases h
  simp [commandNames, quoted_clauses (Plan.hasParts_of_ofEntries hp) (.inl hp)]

theorem quoted_count {s : Search} {f : Fragment} (h : count d s values = .ok f) :
    quoted f = commandNames d (.count s) := by
  obtain ⟨p, hp, h⟩ := Run.outcome_bind_eq_ok.1 h
  cases h
  simp [commandNames, quoted_clauses (Plan.hasParts_of_ofEntries hp) (.inl hp)]

theorem quoted_update {s : Search} {f : Fragment} (h : update d s values = .ok f) :
    quoted f = commandNames d (.update s) := by
  obtain ⟨xs, p, hp, -, rfl⟩ := update_eq_ok.1 h
  obtain ⟨hparts, hassignments⟩ := Plan.hasParts_of_ofChanges hp
  have hone : ∀ (a : Assignment) (v : Value), quoted (assignment a v) = assignmentNames a := by
    rintro ⟨field, value, operator⟩ v
    cases operator <;> simp [assignment, assignmentNames]
  simp [commandNames, quoted_clauses hparts (.inr ⟨_, _, _, hp⟩), ← hassignments, List.flatMap_map,
    hone]

theorem quoted_rowList (columns : List Fragment) (rows : List (List Value)) :
    quoted (rowList columns rows) = columns.flatMap quoted := by
  have hcells : ∀ (r : ℕ) (row : List Value),
      (row.mapIdx fun c v => [Piece.slot (.cell r c) v]).flatMap quoted = row.flatMap fun _ => [] :=
    fun r row => flatMap_mapIdx_of_const (h := fun _ => []) (fun _ _ => rfl) row
  have hrows : (rows.mapIdx fun r row => Piece.text "(" :: (Fragment.join ","
      (row.mapIdx fun c v => [.slot (.cell r c) v]) ++ [.text ")"])).flatMap quoted =
        rows.flatMap fun _ => [] :=
    flatMap_mapIdx_of_const (h := fun _ => []) (fun r row => by simp [hcells]) rows
  simp [rowList, rowGroups, hrows]

theorem quoted_insert {s : Insert} {f : Fragment} (h : insert d s values = .ok f) :
    quoted f = commandNames d (.insert s) := by
  obtain ⟨rows, -, h⟩ := Run.outcome_bind_eq_ok.1 h
  cases h
  simp [commandNames, quoted_rowList, List.flatMap_map, ← List.map_eq_flatMap]

/-- The columns of a replace are those it assigns. -/
theorem map_fst_of_replacements {es : List Entry} {supply supply' : Supply}
    {xs : List (FieldRef × Value)} (h : (replacements d es).run supply = .ok (xs, supply')) :
    xs.map Prod.fst = (Entry.partsAll es).assignments.map Assignment.field := by
  have hassigned := forall₂_of_replacements h
  clear h
  generalize (Entry.partsAll es).assignments = as at hassigned ⊢
  induction hassigned with
  | nil => rfl
  | cons hx _ ih => rw [List.map_cons, List.map_cons, ih, hx.1]

theorem quoted_replace {s : Search} {f : Fragment} (h : replace d s values = .ok f) :
    quoted f = commandNames d (.replace s) := by
  obtain ⟨-, columns, rest, hcolumns, -, rfl⟩ := replace_eq_ok.1 h
  have hfields := congrArg (List.flatMap fieldNames) (map_fst_of_replacements hcolumns)
  rw [List.flatMap_map, List.flatMap_map] at hfields
  simp [commandNames, quoted_rowList, List.flatMap_map, hfields]

/-! ## Tables -/

mutual

theorem quoted_inlineValue : ∀ v : Value, quoted (inlineValue v) = literalTexts v
  | .null | .bool true | .bool false | .int _ | .float _ => by simp [inlineValue, literalTexts]
  | .text s => by simp [inlineValue, literalTexts]
  | .blob bytes => by simp [inlineValue, literalTexts]
  | .list vs => by simp [inlineValue, literalTexts, quoted_inlineValues vs]

theorem quoted_inlineValues : ∀ vs : List Value,
    (inlineValues vs).flatMap quoted = literalTextsAll vs
  | [] => rfl
  | v :: vs => by
    rw [inlineValues, List.flatMap_cons, quoted_inlineValue v, quoted_inlineValues vs,
      literalTextsAll]

end

theorem quoted_defaultValue (d : Dialect) (c : Column) (v : Value) :
    quoted (defaultValue d c.dataType v) = defaultTexts d c v := by
  unfold defaultValue defaultTexts
  cases d.defaultStyle with
  | bound => rfl
  | inline =>
    cases c.dataType.isTextual with
    | false => simp [quoted_inlineValue]
    | true => cases hv : v.textContent <;> simp [quotedValue, hv]

theorem quoted_columnType (d : Dialect) (c : Column) (t : NativeType) :
    quoted (columnType d c t) =
      if isSerial d c then [] else c.default.toList.flatMap (defaultTexts d c) := by
  unfold columnType
  split
  · rfl
  · rw [quoted_text_cons, piecewise_quoted.flatMap]
    simp only [quoted_defaultValue]

theorem quoted_inlineIndexes (d : Dialect) (collection : CollectionRef) (c : Column) :
    quoted (inlineIndexes d collection c) = match d.indexStyle with
      | .inline => (indexEndings c).flatMap fun ending =>
        [quotedName (constraintName collection c.field ending), quotedName c.field]
      | .separate => [] := by
  unfold inlineIndexes
  cases d.indexStyle with
  | separate => rfl
  | inline =>
    rw [piecewise_quoted.flatMap, indexEndings, List.filterMap_eq_flatMap_toList, List.flatMap_assoc]
    congr 1
    funext o
    cases o <;> rfl

theorem map_quoted_separateIndexes (d : Dialect) (collection : CollectionRef) (c : Column) :
    (separateIndexes d collection c).map quoted = followingNames d collection (.column c) := by
  unfold separateIndexes followingNames
  cases d.indexStyle with
  | inline => rfl
  | separate =>
    simp only [indexEndings, List.map_filterMap]
    congr 1
    funext o
    cases indexKind o <;> simp

theorem quoted_definition {collection : CollectionRef} {x : Definition} {f : Fragment}
    (h : definition d collection x = .ok f) : quoted f = definitionNames d collection x := by
  cases x with
  | column c =>
    simp only [definition, columnDefinition] at h
    split at h
    · cases h
    · cases ht : d.types c.dataType with
      | none => simp [ht] at h
      | some t =>
        simp only [ht, Except.ok.injEq] at h
        subst h
        have hoptions : quoted (c.options.flatMap (columnOption d)) = [] := by
          rw [piecewise_quoted.flatMap, List.flatMap_eq_nil_iff]
          intro o _
          unfold columnOption
          split
          all_goals first
            | rfl
            | (split <;> rfl)
        have hunique : ∀ b : Bool, quoted (if b then [Piece.text " UNIQUE"] else []) = [] := by
          intro b
          cases b <;> rfl
        simp only [quoted_append, quoted_columnType, hoptions, hunique, quoted_inlineIndexes,
          List.append_nil]
        rfl
  | foreignKey field key =>
    simp only [definition, foreignKey] at h
    split at h
    · cases h
    · cases h
      have haction : ∀ (event : String) (a : Option ForeignKeyAction),
          quoted (referenceAction event a) = [] := by
        intro event a
        unfold referenceAction
        split <;> rfl
      simp [definitionNames, haction]

theorem quoted_definitions {collection : CollectionRef} : ∀ {xs : List Definition}
    {fs : List Fragment}, List.Forall₂ (fun x f => definition d collection x = .ok f) xs fs →
      fs.flatMap quoted = xs.flatMap (definitionNames d collection)
  | _, _, .nil => rfl
  | _, _, .cons hx hxs => by
    rw [List.flatMap_cons, List.flatMap_cons, quoted_definition hx, quoted_definitions hxs]

/-- Blanks are not quoted. -/
theorem quoted_trimEnd {q : Text.Quotes} (hq : Known q) (f : Fragment) :
    quoted (trimEnd q f) = quoted f :=
  filterMap_trimEnd (fun _ => rfl) hq f

theorem quoted_included (hd : d.Readable) {s : Create} {f : Fragment}
    (h : included d s values = .ok f) : quoted f = s.included.toList.flatMap (findNames d) := by
  unfold included at h
  cases hs : s.included with
  | none =>
    simp only [hs, Except.ok.injEq] at h
    simp [← h]
  | some find =>
    simp only [hs] at h
    split at h
    · cases h
    · obtain ⟨-, -, h⟩ := Run.outcome_bind_eq_ok.1 h
      obtain ⟨g, hg, h⟩ := Run.outcome_bind_eq_ok.1 h
      cases h
      simp [quoted_trimEnd hd.quotes, quoted_select hg]

theorem quoted_create (hd : d.Readable) {s : Create} (hs : s.engine = none) {q : Query}
    (h : create d s values = .ok q) : quoted q.command = commandNames d (.create s) ∧
      q.additional.map quoted = additionalNames d (.create s) := by
  obtain ⟨lines, fill, hlines, hfill, rfl⟩ := create_eq_ok h
  have hengine : engine d s = [] := by simp [engine, hs]
  refine ⟨?_, ?_⟩
  · simp [commandNames, hengine, quoted_definitions hlines, quoted_included hd hfill]
  · have hafter : ∀ x, (afterDefinition d s.collection x).map quoted =
        followingNames d s.collection x := by
      intro x
      cases x with
      | column c => exact map_quoted_separateIndexes d s.collection c
      | foreignKey field key => rfl
    simp [additionalNames, List.map_flatMap, hafter]

theorem quoted_drop {target : DropTarget} {f : Fragment} (h : drop d target = .ok f) :
    quoted f = commandNames d (.drop target) := by
  cases target with
  | collection c =>
    cases h
    simp [commandNames]
  | database name =>
    unfold drop at h
    cases he : d.environment with
    | embedded => simp [he] at h
    | server =>
      simp only [he, Except.ok.injEq] at h
      subst h
      rfl

/-! ## All statements -/

/-- **The quoted pieces of a command are what its statement lists**, and so are
those of the commands that follow it. -/
theorem quoted_render (hd : d.Readable) {s : Statement} (hs : s.PlainEngine) {q : Query}
    (h : render d s values = .ok q) : quoted q.command = commandNames d s ∧
      q.additional.map quoted = additionalNames d s := by
  have hsingle : ∀ {x : Except QueryError Fragment}, x.map (single d) = .ok q →
      additionalNames d s = [] → (∀ f, x = .ok f → quoted f = commandNames d s) →
      quoted q.command = commandNames d s ∧ q.additional.map quoted = additionalNames d s := by
    intro x hx hnone hf
    obtain ⟨f, hok, rfl⟩ := Run.outcome_map_eq_ok.1 hx
    exact ⟨hf f hok, by rw [hnone]; rfl⟩
  cases s with
  | find s => exact hsingle h rfl fun f => quoted_select
  | insert s => exact hsingle h rfl fun f => quoted_insert
  | update s => exact hsingle h rfl fun f => quoted_update
  | delete s => exact hsingle h rfl fun f => quoted_delete
  | replace s => exact hsingle h rfl fun f => quoted_replace
  | create s => exact quoted_create hd (hs s rfl) h
  | drop target => exact hsingle h rfl fun f => quoted_drop
  | count s => exact hsingle h rfl fun f => quoted_count
  | clear c =>
    cases h
    simp [single, clear, commandNames, additionalNames]

end Sql

end QueryLayer
