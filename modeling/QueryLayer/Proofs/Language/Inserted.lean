import QueryLayer.Language
import QueryLayer.Proofs.Build.Columns
import QueryLayer.Proofs.Insert.Cells
import QueryLayer.Proofs.Sql.Apart

/-!
# Built inserts in both languages

SQL writes the cells of an insert as placeholders and binds their values row by
row, and the document store makes a document of each row. Both take the rows
from the same place, so either has an insert if there are rows. What may get lost
is a column: a document holds each name once. Calls name no column twice, though,
and so every bound value is found again in the document of its row, under the
name of its column (`inserts_keep_cells`).
-/

namespace QueryLayer

namespace Keyed

variable {κ α : Type} [DecidableEq κ] {pairs : List (κ × α)}

theorem put_of_not_mem {key : κ} {value : α} (h : key ∉ pairs.map Prod.fst) :
    put key value pairs = pairs ++ [(key, value)] := by
  induction pairs with
  | nil => rfl
  | cons p rest ih =>
    rw [List.map_cons, List.mem_cons, not_or] at h
    rw [put, if_neg (Ne.symm h.1), ih h.2, List.cons_append]

/-- Pairs whose keys differ are kept as they are. -/
theorem ofPairs_eq_self (h : (pairs.map Prod.fst).Nodup) : ofPairs pairs = pairs := by
  induction pairs using List.reverseRecOn with
  | nil => rfl
  | append_singleton pairs p ih =>
    rw [List.map_append, List.map_singleton, List.nodup_append] at h
    have hnew : p.1 ∉ pairs.map Prod.fst := fun hmem => h.2.2 _ hmem _ List.mem_cons_self rfl
    rw [ofPairs_concat, ih h.1, put_of_not_mem hnew]

end Keyed

theorem length_flatten_of_width {α : Type} {rows : List (List α)} {width : ℕ}
    (hwidth : ∀ row ∈ rows, row.length = width) : rows.flatten.length = rows.length * width := by
  rw [List.length_flatten, List.map_congr_left hwidth, List.map_const',
    List.sum_replicate_nat]

/-- The cells of rows of one width, counted row by row. -/
theorem getElem?_flatten_of_width {α : Type} {rows : List (List α)} {width r i : ℕ} {row : List α}
    (hwidth : ∀ row ∈ rows, row.length = width) (hrow : rows[r]? = some row) (hi : i < width) :
    rows.flatten[r * width + i]? = row[i]? := by
  induction rows generalizing r with
  | nil => simp at hrow
  | cons first rows ih =>
    obtain ⟨hfirst, hrows⟩ := List.forall_mem_cons.1 hwidth
    rw [List.flatten_cons]
    cases r with
    | zero =>
      obtain rfl : first = row := Option.some.inj hrow
      rw [Nat.zero_mul, Nat.zero_add, List.getElem?_append_left (by omega)]
    | succ r =>
      rw [Nat.succ_mul, List.getElem?_append_right (by omega), hfirst, ← ih hrows hrow]
      congr 1
      omega

/-! ## The text of an insert -/

namespace Sql

open Fragment

variable {d : Dialect} {s : Insert} {values : List Value} {rows : List (List Value)} {width : ℕ}

/-- An insert has a command if it has rows. -/
theorem exists_render_insert_iff : (∃ q, render d (.insert s) values = .ok q) ↔
    ∃ rows, s.rows values = .ok rows := by
  constructor
  · rintro ⟨q, hq⟩
    obtain ⟨f, hf, -⟩ := Run.outcome_map_eq_ok.1 hq
    obtain ⟨rows, hrows, -⟩ := insert_eq_ok.1 hf
    exact ⟨rows, hrows⟩
  · rintro ⟨rows, hrows⟩
    exact ⟨_, Run.outcome_map_eq_ok.2 ⟨_, insert_eq_ok.2 ⟨rows, hrows, rfl⟩, rfl⟩⟩

/-- Placeholders in brackets, as many as there are cells in a row. -/
def rowGroup (width : ℕ) : List Char :=
  '(' :: (List.intercalate [','] (List.replicate width ['?']) ++ [')'])

/-- The text of an insert into a table of so many rows, with these columns. -/
def insertText (d : Dialect) (c : CollectionRef) (columns : List String) (height : ℕ) : List Char :=
  "INSERT INTO ".toList ++ ((d.table c).write d.quotes ++ (" (".toList ++
    List.intercalate [','] (columns.map fun n => d.quotes.wrap n.toList) ++ ") VALUES ".toList ++
      List.intercalate [','] (List.replicate height (rowGroup columns.length)) ++ [';']))

theorem write_rowGroups (q : Text.Quotes) (rows columns : ℕ) :
    write q (Apart.rowGroups rows columns) =
      List.intercalate [','] (List.replicate rows (rowGroup columns)) := by
  have hgroup : write q (.text "(" ::
      (Fragment.join "," (List.replicate columns [Traversal.mark]) ++ [.text ")"])) =
        rowGroup columns := by
    rw [write_cons, write_append, write_join, List.map_replicate]
    rfl
  rw [Apart.rowGroups, write_join, List.map_replicate, hgroup]
  rfl

theorem write_rowList (q : Text.Quotes) (columns : List Fragment) (rows : ℕ) :
    write q (Apart.rowList columns rows) =
      " (".toList ++ List.intercalate [','] (columns.map (write q)) ++ ") VALUES ".toList ++
        List.intercalate [','] (List.replicate rows (rowGroup columns.length)) ++ [';'] := by
  have htext : ∀ s : String, write q [.text s] = s.toList := fun s => by
    rw [write_cons, write_nil, List.append_nil, Piece.write]
  rw [Apart.rowList, write_append, write_append, write_append, write_append, write_rowGroups,
    write_join, htext, htext, htext]
  rfl

/-- **The insert in SQL**: its text has one placeholder for each cell, and its
parameters are the cells row by row. -/
theorem render_insert {q : Query} (hrows : s.rows values = .ok rows)
    (hq : render d (.insert s) values = .ok q) :
    q.text.toList = insertText d s.collection (s.columns.map (·.field)) rows.length ∧
      q.params = rows.flatten := by
  obtain ⟨f, hf, rfl⟩ := Run.outcome_map_eq_ok.1 hq
  have hsame := Apart.insert_eq d s values
  rw [Apart.insert, hrows, hf] at hsame
  obtain ⟨htext, hparams⟩ := Prod.mk.inj (Except.ok.inj hsame)
  refine ⟨?_, hparams.symm⟩
  have hwritten : (d.write f).toList = write d.quotes (.text "INSERT INTO " ::
      (d.table s.collection ++
        Apart.rowList (s.columns.map fun c => [.name c.field]) rows.length)) := by
    rw [← htext]
    exact String.toList_ofList
  have hnames : (s.columns.map fun c => [Piece.name c.field]).map (write d.quotes) =
      (s.columns.map (·.field)).map fun n => d.quotes.wrap n.toList := by
    rw [List.map_map, List.map_map]
    refine List.map_congr_left fun c _ => ?_
    rw [Function.comp_apply, write_cons, write_nil, List.append_nil, Piece.write, Function.comp_apply]
  change (d.write f).toList = _
  unfold insertText
  rw [hwritten, write_cons, write_append, write_rowList, hnames, List.length_map, List.length_map,
    Piece.write]


end Sql

/-! ## The documents of an insert -/

namespace Document

variable {s : Insert} {values : List Value} {rows : List (List Value)}

theorem insert_eq_ok {cmd : Command} :
    render (.insert s) values = .ok cmd ↔ ∃ rows, s.rows values = .ok rows ∧
      cmd = .insert s.collection.name
        (rows.map fun row => Keyed.ofPairs ((s.columns.map (·.field)).zip row)) := by
  change insert s values = .ok cmd ↔ _
  rw [insert, Run.outcome_bind_eq_ok]
  exact exists_congr fun rows => and_congr_right fun _ =>
    ⟨fun h => (Except.ok.inj h).symm, fun h => congrArg Except.ok h.symm⟩

theorem exists_render_insert_iff : (∃ cmd, render (.insert s) values = .ok cmd) ↔
    ∃ rows, s.rows values = .ok rows := by
  constructor
  · rintro ⟨cmd, hcmd⟩
    obtain ⟨rows, hrows, -⟩ := insert_eq_ok.1 hcmd
    exact ⟨rows, hrows⟩
  · rintro ⟨rows, hrows⟩
    exact ⟨_, insert_eq_ok.2 ⟨rows, hrows, rfl⟩⟩

/-- The document of a row: the columns with the JSON of the cells. -/
def rowDocument (names : List String) (row : List Value) : List (String × Json) :=
  names.zip (row.map Value.toJson)

/-- **The insert of documents**: one for each row. No column is lost if the names
differ. -/
theorem render_insert {cmd : Command} (hnames : (s.columns.map (·.field)).Nodup)
    (hrows : s.rows values = .ok rows) (hcmd : render (.insert s) values = .ok cmd) :
    cmd.toJson = .object [("operation", .string "insert"), ("collection", .string s.collection.name),
      ("documents", .array
        (rows.map fun row => .object (rowDocument (s.columns.map (·.field)) row)))] := by
  obtain ⟨rows', hrows', rfl⟩ := insert_eq_ok.1 hcmd
  obtain rfl : rows = rows' := Except.ok.inj (hrows.symm.trans hrows')
  have hdocument : ∀ row ∈ rows, documentJson (Keyed.ofPairs ((s.columns.map (·.field)).zip row)) =
      .object (rowDocument (s.columns.map (·.field)) row) := by
    intro row hrow
    have hlength : (s.columns.map (·.field)).length ≤ row.length := by
      rw [List.length_map, Insert.length_of_mem_rows hrows hrow]
    rw [Keyed.ofPairs_eq_self (by rwa [List.map_fst_zip hlength]), documentJson, rowDocument,
      List.zip_map_right]
    rfl
  have hdocuments : (rows.map fun row => Keyed.ofPairs ((s.columns.map (·.field)).zip row)).map
      documentJson = rows.map fun row => .object (rowDocument (s.columns.map (·.field)) row) := by
    rw [List.map_map]
    exact List.map_congr_left hdocument
  rw [Command.toJson, hdocuments]
  rfl

end Document

/-! ## Both languages -/

/-- The bound values are found again in the documents, row by row and each under
the name of its column. -/
structure HoldCells (names : List String) (documents : List (List (String × Json)))
    (params : List Value) : Prop where
  /-- There is a value for every name in every document. -/
  length : params.length = documents.length * names.length
  /-- A document has all names, and no other. -/
  keys : ∀ document ∈ documents, document.map Prod.fst = names
  /-- A name has the value in its place. -/
  cell : ∀ r document, documents[r]? = some document → ∀ i name, names[i]? = some name →
    ∃ v, params[r * names.length + i]? = some v ∧ Keyed.get? name document = some v.toJson

/-- The documents of rows hold their cells. -/
theorem holdCells_rowDocuments {names : List String} {rows : List (List Value)}
    (hnames : names.Nodup) (hrows : ∀ row ∈ rows, row.length = names.length) :
    HoldCells names (rows.map (Document.rowDocument names)) rows.flatten where
  length := by rw [List.length_map, length_flatten_of_width hrows]
  keys := by
    intro document hdocument
    obtain ⟨row, hrow, rfl⟩ := List.mem_map.1 hdocument
    exact List.map_fst_zip (by rw [List.length_map, hrows row hrow])
  cell := by
    intro r document hdocument i name hname
    rw [List.getElem?_map, Option.map_eq_some_iff] at hdocument
    obtain ⟨row, hrow, rfl⟩ := hdocument
    have hlength := hrows row (List.mem_of_getElem? hrow)
    have hi : i < names.length := (List.getElem?_eq_some_iff.1 hname).1
    obtain ⟨v, hv⟩ : ∃ v, row[i]? = some v := ⟨_, List.getElem?_eq_getElem (hlength ▸ hi)⟩
    refine ⟨v, (getElem?_flatten_of_width hrows hrow hi).trans hv, ?_⟩
    refine Keyed.get?_zip hnames (by rw [List.length_map, hlength]) hname ?_
    rw [List.getElem?_map, hv, Option.map_some]

open Text Build

/-- **An insert that calls build loses no cell.** The columns are the names that
the calls mention, each once, and each holds what the calls gave to it. The
insert has a command in SQL if it has one in the document store. The text of the
first has a group of placeholders for each document of the second, and these
documents hold the values that are bound. -/
theorem inserts_keep_cells (c : CollectionRef) (calls : List InsertCall) :
    let names := firstSpellings (calls.flatMap InsertCall.mentions)
    let s := runAll InsertCall.apply calls (Insert.into c)
    s = ⟨c, names.map fun n => ⟨n, InsertCall.givenTo n [] calls⟩⟩ ∧
      names.Pairwise (fun a b => sameName a b = false) ∧
      ∀ (d : Dialect) (values : List Value),
        ((∃ q, Sql.render d (.insert s) values = .ok q) ↔
          ∃ cmd, Document.render (.insert s) values = .ok cmd) ∧
        ∀ q cmd, Sql.render d (.insert s) values = .ok q →
          Document.render (.insert s) values = .ok cmd →
            ∃ documents : List (List (String × Json)),
              cmd.toJson = .object [("operation", .string "insert"), ("collection", .string c.name),
                ("documents", .array (documents.map .object))] ∧
              q.text.toList = Sql.insertText d c names documents.length ∧
              HoldCells names documents q.params := by
  intro names s
  have hs : s = ⟨c, names.map fun n => ⟨n, InsertCall.givenTo n [] calls⟩⟩ := runAll_into c calls
  have hcollection : s.collection = c := by rw [hs]
  have hfields : s.columns.map (·.field) = names := by
    rw [hs, List.map_map]
    exact List.map_id names
  have hnodup : names.Nodup := nodup_firstSpellings _
  refine ⟨hs, pairwise_firstSpellings _, fun d values =>
    ⟨Sql.exists_render_insert_iff.trans Document.exists_render_insert_iff.symm,
      fun q cmd hq hcmd => ?_⟩⟩
  obtain ⟨rows, hrows⟩ := Sql.exists_render_insert_iff.1 ⟨q, hq⟩
  obtain ⟨htext, hparams⟩ := Sql.render_insert hrows hq
  have hjson := Document.render_insert (hfields ▸ hnodup) hrows hcmd
  rw [hcollection, hfields] at htext hjson
  have hwidth : ∀ row ∈ rows, row.length = names.length := by
    intro row hrow
    rw [Insert.length_of_mem_rows hrows hrow, ← hfields, List.length_map]
  refine ⟨rows.map (Document.rowDocument names), ?_, ?_, ?_⟩
  · rw [hjson, List.map_map]
    rfl
  · rw [htext, List.length_map]
  · rw [hparams]
    exact holdCells_rowDocuments hnodup hwidth

/-- Calls that spell a column in two ways, give a row that is too short, and leave
cells open. -/
def spelledTwice : List InsertCall :=
  [.set "Name" (.literal (.text "a")), .fields ["name", "Age"], .values [.literal (.text "b")],
    .values [.literal (.text "c"), .prepared], .setPrepared "AGE"]

theorem inserts_of_spelledTwice_keep_cells :
    ∃ q cmd, ∃ documents : List (List (String × Json)),
      Sql.render .mysql (.insert (runAll InsertCall.apply spelledTwice
        (Insert.into ⟨"shop", "users"⟩))) [.int 1, .int 2] = .ok q ∧
      Document.render (.insert (runAll InsertCall.apply spelledTwice
        (Insert.into ⟨"shop", "users"⟩))) [.int 1, .int 2] = .ok cmd ∧
      cmd.toJson = .object [("operation", .string "insert"), ("collection", .string "users"),
        ("documents", .array (documents.map .object))] ∧
      q.params = [.text "a", .int 1, .text "c", .int 2] ∧
      HoldCells ["Name", "Age"] documents q.params := by
  have hnames : firstSpellings (spelledTwice.flatMap InsertCall.mentions) = ["Name", "Age"] := by
    decide +kernel
  have hq : Sql.render .mysql (.insert (runAll InsertCall.apply spelledTwice
    (Insert.into ⟨"shop", "users"⟩))) [.int 1, .int 2] = .ok _ := rfl
  have hcmd : Document.render (.insert (runAll InsertCall.apply spelledTwice
    (Insert.into ⟨"shop", "users"⟩))) [.int 1, .int 2] = .ok _ := rfl
  obtain ⟨-, -, hrun⟩ := inserts_keep_cells ⟨"shop", "users"⟩ spelledTwice
  obtain ⟨documents, hjson, -, hcells⟩ := (hrun .mysql [.int 1, .int 2]).2 _ _ hq hcmd
  rw [hnames] at hcells
  exact ⟨_, _, documents, hq, hcmd, hjson, rfl, hcells⟩

end QueryLayer
