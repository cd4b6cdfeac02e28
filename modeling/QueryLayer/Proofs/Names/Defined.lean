import QueryLayer.Proofs.Names.Quoted
import QueryLayer.Proofs.Sql.Vocabulary
import Mathlib.Data.List.Nodup
import Mathlib.Data.List.Perm.Basic

/-!
# The names of indexes and constraints

A table has an index for each option that asks for one and a constraint for each
foreign key. Their names can be read off the commands: each stands right behind
the words for it (`definedNames_perm`).

A name is made of the table, the field and what the name is for, and without the
limit on its length no two would be the same (`uncutName_injective`). Cut to this
length, two names are the same exactly if they differ behind it only
(`definedNames_nodup_iff`).
-/

namespace QueryLayer

/-! ## What a table asks for -/

namespace Definition

/-- The field of a column. -/
def columnField? : Definition → Option String
  | .column c => some c.field
  | .foreignKey _ _ => none

/-- The field of a foreign key. -/
def keyField? : Definition → Option String
  | .column _ => none
  | .foreignKey field _ => some field

/-- The field and the ending of each name that a line asks for. -/
def nameParts : Definition → List (String × String)
  | .column c => (Sql.indexEndings c).map (c.field, ·)
  | .foreignKey field _ => [(field, "fk")]

end Definition

namespace Create

/-- The field and the ending of each name that a table asks for. -/
def nameParts (s : Create) : List (String × String) := s.definitions.flatMap Definition.nameParts

/-- No column, no foreign key of a column and no option of a column is given
twice. -/
structure Unrepeated (s : Create) : Prop where
  columns : (s.definitions.filterMap Definition.columnField?).Nodup
  keys : (s.definitions.filterMap Definition.keyField?).Nodup
  options : ∀ c, .column c ∈ s.definitions → c.options.Nodup

end Create

namespace Sql

open Fragment

/-- The name of an index or a constraint before it is cut. -/
def uncutName (collection : CollectionRef) (parts : String × String) : String :=
  collection.name ++ "_" ++ parts.1 ++ "_" ++ parts.2

/-- What stands right before the name of a new index or constraint. -/
def definingWords : List String := ["INDEX ", "INDEX IF NOT EXISTS ", "CONSTRAINT "]

/-- The name behind the text is that of a new index or constraint. -/
def defines (s : String) : Bool := definingWords.any fun w => w.toList.isSuffixOf s.toList

namespace Fragment

/-- The name that a fragment begins with. -/
def firstName : Fragment → List String
  | .name n :: _ => [n]
  | _ => []

/-- The names of new indexes and constraints. -/
def definedNames : Fragment → List String
  | [] => []
  | .text s :: f => (if defines s then firstName f else []) ++ definedNames f
  | _ :: f => definedNames f

variable {f g : Fragment}

@[simp] theorem definedNames_nil : definedNames [] = [] := rfl

@[simp] theorem definedNames_name_cons (n : String) (f : Fragment) :
    definedNames (.name n :: f) = definedNames f := rfl

/-- Words that define are followed by the name. -/
theorem definedNames_defining {s : String} (hs : defines s = true) (n : String) (f : Fragment) :
    definedNames (.text s :: .name n :: f) = n :: definedNames f := by
  rw [definedNames, hs]
  rfl

/-- Other words define nothing. -/
theorem definedNames_text_cons {s : String} (hs : defines s = false) (f : Fragment) :
    definedNames (.text s :: f) = definedNames f := by
  rw [definedNames, hs]
  rfl

theorem firstName_append (hg : firstName g = []) (f : Fragment) :
    firstName (f ++ g) = firstName f := by
  cases f with
  | nil => exact hg
  | cons p f => cases p <;> rfl

/-- A name stands behind its own words, so fragments may be read apart where no name
begins. -/
theorem definedNames_append (hg : firstName g = []) (f : Fragment) :
    definedNames (f ++ g) = definedNames f ++ definedNames g := by
  induction f with
  | nil => rfl
  | cons p f ih =>
    cases p with
    | text s =>
      rw [List.cons_append, definedNames, definedNames, ih, firstName_append hg, List.append_assoc]
    | name n | literal content | slot s v => exact ih

theorem definedNames_join {mark : String} (hmark : defines mark = false) : ∀ fs : List Fragment,
    definedNames (join mark fs) = fs.flatMap definedNames
  | [] => rfl
  | [f] => by simp [join_singleton]
  | f :: g :: fs => by
    rw [join_cons_cons, definedNames_append (by rfl), definedNames_text_cons hmark,
      definedNames_join hmark (g :: fs)]
    rfl

theorem definedNames_flatMap {α : Type} {g : α → Fragment} (hg : ∀ x, firstName (g x) = []) :
    ∀ xs : List α, firstName (xs.flatMap g) = [] ∧
      definedNames (xs.flatMap g) = xs.flatMap fun x => definedNames (g x)
  | [] => ⟨rfl, rfl⟩
  | x :: xs => by
    obtain ⟨hfirst, hnames⟩ := definedNames_flatMap hg xs
    rw [List.flatMap_cons, List.flatMap_cons, firstName_append hfirst, definedNames_append hfirst,
      hnames]
    exact ⟨hg x, rfl⟩

/-- Without names nothing is named. -/
theorem definedNames_of_no_names (hf : ∀ n, .name n ∉ f) : definedNames f = [] := by
  induction f with
  | nil => rfl
  | cons p f ih =>
    have hrest := ih fun n hn => hf n (by simp [hn])
    cases p with
    | text s =>
      have hfirst : firstName f = [] := by
        cases f with
        | nil => rfl
        | cons p f =>
          cases p with
          | name n => exact absurd (by simp) (hf n)
          | text s | literal content | slot s v => rfl
      rw [definedNames, hfirst, hrest, ite_self, List.append_nil]
    | name n => exact absurd (by simp) (hf n)
    | literal content | slot s v => exact hrest

/-- And without words that define. -/
theorem definedNames_of_texts (hf : ∀ s ∈ texts f, defines s = false) : definedNames f = [] := by
  induction f with
  | nil => rfl
  | cons p f ih =>
    cases p with
    | text s =>
      rw [texts_text_cons] at hf
      obtain ⟨hs, hf⟩ := List.forall_mem_cons.1 hf
      rw [definedNames_text_cons hs, ih hf]
    | name n | literal content | slot s v => exact ih hf

end Fragment

/-- The names of the indexes and constraints that a query makes. -/
def Query.definedNames (q : Query) : List String :=
  Fragment.definedNames q.command ++ q.additional.flatMap Fragment.definedNames

variable {d : Dialect} {values : List Value} {collection : CollectionRef}

/-- The name of a table defines nothing. -/
theorem definedNames_table_append (d : Dialect) (c : CollectionRef) (f : Fragment) :
    definedNames (d.table c ++ f) = definedNames f := by
  have hpoint : defines "." = false := by decide
  unfold Dialect.table
  cases d.environment with
  | embedded => rfl
  | server =>
    simp only [List.cons_append, List.nil_append, definedNames_name_cons,
      definedNames_text_cons hpoint]

/-! ## Columns -/

theorem name_notMem_join {n : String} (mark : String) : ∀ {fs : List Fragment},
    (∀ f ∈ fs, .name n ∉ f) → .name n ∉ Fragment.join mark fs
  | [], _ => List.not_mem_nil
  | [f], h => by
    rw [join_singleton]
    exact h f (by simp)
  | f :: g :: fs, h => by
    have hrest := name_notMem_join mark fun f' hf' => h f' (List.mem_cons_of_mem f hf')
    rw [join_cons_cons]
    simpa using ⟨h f (by simp), hrest⟩

mutual

/-- The literal of a value holds no names. -/
theorem name_notMem_inlineValue (n : String) : ∀ v : Value, .name n ∉ inlineValue v
  | .null | .bool true | .bool false | .int _ | .float _ => by simp [inlineValue]
  | .text s => by simp [inlineValue]
  | .blob bytes => by simp [inlineValue]
  | .list vs => by
    have hvalues := name_notMem_join "," (name_notMem_inlineValues n vs)
    simpa [inlineValue] using hvalues

theorem name_notMem_inlineValues (n : String) : ∀ vs : List Value, ∀ f ∈ inlineValues vs, .name n ∉ f
  | [], f, hf => by simp [inlineValues] at hf
  | v :: vs, f, hf => by
    rw [inlineValues] at hf
    rcases List.mem_cons.1 hf with rfl | hf
    · exact name_notMem_inlineValue n v
    · exact name_notMem_inlineValues n vs f hf

end

theorem name_notMem_defaultValue (n : String) (d : Dialect) (t : DataType) (v : Value) :
    .name n ∉ defaultValue d t v := by
  unfold defaultValue
  cases d.defaultStyle with
  | bound => simp
  | inline =>
    have hvalue : .name n ∉ quotedValue v := by
      unfold quotedValue
      split <;> simp
    dsimp only
    split
    · simpa using hvalue
    · simpa using name_notMem_inlineValue n v

theorem name_notMem_columnType (n : String) (d : Dialect) (c : Column) (t : NativeType) :
    .name n ∉ columnType d c t := by
  unfold columnType
  split
  · simp
  · simpa using fun v _ => name_notMem_defaultValue n d c.dataType v

theorem name_notMem_columnOption (n : String) (d : Dialect) (o : ColumnOption) :
    .name n ∉ columnOption d o := by
  unfold columnOption
  split
  all_goals first
    | simp
    | (split <;> simp)

/-- The names of the indexes that stand inside the table. -/
theorem definedNames_inlineIndexes (d : Dialect) (collection : CollectionRef) (c : Column) :
    firstName (inlineIndexes d collection c) = [] ∧
      definedNames (inlineIndexes d collection c) = match d.indexStyle with
        | .inline => (indexEndings c).map (constraintName collection c.field)
        | .separate => [] := by
  unfold inlineIndexes
  cases d.indexStyle with
  | separate => exact ⟨rfl, rfl⟩
  | inline =>
    have hopen : defines "(" = false := by decide
    have hclose : defines ")" = false := by decide
    have hbody : ∀ words ending, defines ("," ++ words ++ " ") = true →
        definedNames [.text ("," ++ words ++ " "), .name (constraintName collection c.field ending),
          .text "(", .name c.field, .text ")"] = [constraintName collection c.field ending] := by
      intro words ending hwords
      rw [definedNames_defining hwords, definedNames_text_cons hopen, definedNames_name_cons,
        definedNames_text_cons hclose, definedNames_nil]
    refine (definedNames_flatMap (fun o => ?_) c.options).imp id fun hnames => hnames.trans ?_
    · cases o <;> rfl
    · rw [indexEndings, List.map_filterMap, List.filterMap_eq_flatMap_toList]
      congr 1
      funext o
      cases o with
      | index => exact hbody "INDEX" "index" (by decide)
      | uniqueIndex => exact hbody "UNIQUE INDEX" "unique" (by decide)
      | primaryKey | autoIncrement | notNull | unique => rfl

/-- Nothing but its indexes is named in the definition of a column. -/
theorem definedNames_columnDefinition {c : Column} {f : Fragment}
    (h : columnDefinition d collection c = .ok f) : definedNames f = match d.indexStyle with
      | .inline => (indexEndings c).map (constraintName collection c.field)
      | .separate => [] := by
  unfold columnDefinition at h
  split at h
  · cases h
  · cases ht : d.types c.dataType with
    | none => simp [ht] at h
    | some t =>
      simp only [ht, Except.ok.injEq] at h
      subst h
      obtain ⟨hfirst, hindexes⟩ := definedNames_inlineIndexes d collection c
      have hblank : defines " " = false := by decide
      have hunique : ∀ n, ∀ b : Bool, .name n ∉ if b then [Piece.text " UNIQUE"] else [] := by
        intro n b
        cases b <;> simp
      have hrest : definedNames (columnType d c t ++ (c.options.flatMap (columnOption d) ++
          if d.primaryKeyUnique && c.has .primaryKey && !c.has .unique then [Piece.text " UNIQUE"]
          else [])) = [] := by
        refine definedNames_of_no_names fun n => ?_
        simp only [List.mem_append, List.mem_flatMap, not_or, not_exists, not_and]
        exact ⟨name_notMem_columnType n d c t, fun o _ => name_notMem_columnOption n d o, hunique n _⟩
      rw [definedNames_append hfirst, hindexes]
      simp only [List.append_assoc, List.cons_append, List.nil_append]
      rw [definedNames_name_cons, definedNames_text_cons hblank, hrest, List.nil_append]

/-- The names of the indexes that are commands of their own. -/
theorem definedNames_separateIndexes (d : Dialect) (collection : CollectionRef) (c : Column) :
    (separateIndexes d collection c).flatMap definedNames = match d.indexStyle with
      | .inline => []
      | .separate => (indexEndings c).map (constraintName collection c.field) := by
  unfold separateIndexes
  cases d.indexStyle with
  | inline => rfl
  | separate =>
    have hon : defines " ON " = false := by decide
    have hopen : defines "(" = false := by decide
    have hclose : defines ");" = false := by decide
    have hbody : ∀ words ending, defines ("CREATE " ++ words ++ " IF NOT EXISTS ") = true →
        definedNames ([.text ("CREATE " ++ words ++ " IF NOT EXISTS "),
          .name (constraintName collection c.field ending), .text " ON "] ++ d.table collection ++
          [.text "(", .name c.field, .text ");"]) = [constraintName collection c.field ending] := by
      intro words ending hwords
      simp only [List.cons_append, List.nil_append, definedNames_defining hwords,
        definedNames_text_cons hon, definedNames_table_append, definedNames_text_cons hopen,
        definedNames_name_cons, definedNames_text_cons hclose, definedNames_nil]
    rw [indexEndings, List.map_filterMap, List.filterMap_eq_flatMap_toList,
      List.filterMap_eq_flatMap_toList, List.flatMap_assoc]
    congr 1
    funext o
    cases o with
    | index => exact (List.flatMap_singleton ..).trans (hbody "INDEX" "index" (by decide))
    | uniqueIndex =>
      exact (List.flatMap_singleton ..).trans (hbody "UNIQUE INDEX" "unique" (by decide))
    | primaryKey | autoIncrement | notNull | unique => rfl

/-! ## Lines of a table -/

/-- The name of a foreign key. -/
theorem definedNames_foreignKey {field : String} {key : ForeignKey} {f : Fragment}
    (h : foreignKey d collection field key = .ok f) :
    definedNames f = [constraintName collection field "fk"] := by
  unfold foreignKey at h
  split at h
  · cases h
  · cases h
    have hconstraint : defines "CONSTRAINT " = true := by decide
    have hkey : defines " FOREIGN KEY(" = false := by decide
    have hreferences : defines ") REFERENCES " = false := by decide
    have hopen : defines "(" = false := by decide
    have hclose : defines ")" = false := by decide
    have hactions : definedNames (referenceAction "DELETE" key.onDelete ++
        referenceAction "UPDATE" key.onUpdate) = [] := by
      refine definedNames_of_no_names fun n => ?_
      have haction : ∀ event a, .name n ∉ referenceAction event a := by
        intro event a
        unfold referenceAction
        split <;> simp
      simpa using ⟨haction _ _, haction _ _⟩
    simp only [List.append_assoc, List.cons_append, List.nil_append,
      definedNames_defining hconstraint, definedNames_text_cons hkey, definedNames_name_cons,
      definedNames_text_cons hreferences, definedNames_table_append, definedNames_text_cons hopen,
      definedNames_text_cons hclose, hactions]

/-- **The names of a line**, inside the table and in the commands behind it, are those
it asks for. -/
theorem definedNames_definition {x : Definition} {f : Fragment}
    (h : definition d collection x = .ok f) :
    definedNames f ++ (afterDefinition d collection x).flatMap definedNames =
      x.nameParts.map fun parts => constraintName collection parts.1 parts.2 := by
  cases x with
  | column c =>
    have hline := definedNames_columnDefinition (h : columnDefinition d collection c = .ok f)
    have hafter := definedNames_separateIndexes d collection c
    rw [afterDefinition, hline, hafter, Definition.nameParts, List.map_map]
    cases d.indexStyle with
    | inline => exact List.append_nil _
    | separate => rfl
  | foreignKey field key =>
    have hline := definedNames_foreignKey (h : foreignKey d collection field key = .ok f)
    exact (List.append_nil _).trans hline

/-- The same for all lines, up to the order of the names. -/
theorem definedNames_definitions_perm {xs : List Definition} {fs : List Fragment}
    (h : List.Forall₂ (fun x f => definition d collection x = .ok f) xs fs) :
    (fs.flatMap definedNames ++
      (xs.flatMap (afterDefinition d collection)).flatMap definedNames).Perm
        ((xs.flatMap Definition.nameParts).map fun parts =>
          constraintName collection parts.1 parts.2) := by
  induction h with
  | nil => exact .nil
  | @cons x f xs fs hx hxs ih =>
    have hswap := List.perm_append_comm_assoc (fs.flatMap definedNames)
      ((afterDefinition d collection x).flatMap definedNames)
      ((xs.flatMap (afterDefinition d collection)).flatMap definedNames)
    simp only [List.flatMap_cons, List.flatMap_append, List.map_append, List.append_assoc,
      ← definedNames_definition hx]
    exact (hswap.trans (ih.append_left _)).append_left _

/-! ## The whole table -/

/-- A text without the blanks at its end does not define. -/
theorem defines_eq_false {s : String} (hs : ∀ c ∈ s.toList.getLast?, Text.isBlank c = false) :
    defines s = false := by
  refine eq_false_of_ne_true fun hdefines => ?_
  obtain ⟨w, hw, hsuffix⟩ := List.any_eq_true.1 hdefines
  obtain ⟨start, hstart⟩ := List.isSuffixOf_iff_suffix.1 hsuffix
  have hwords : ∀ w ∈ definingWords, w.toList.getLast? = some ' ' := by decide
  have hblank := hwords w hw
  have hlast : ' ' ∈ s.toList.getLast? := by
    rw [← hstart, List.getLast?_append, hblank]
    rfl
  exact absurd (hs ' ' hlast) (by decide)

theorem isBlank_of_mem_getLast?_trimEnd {cs : List Char} :
    ∀ c ∈ (Text.trimEnd cs).getLast?, Text.isBlank c = false := by
  intro c hc
  have hhead := List.head?_dropWhile_not Text.isBlank cs.reverse
  rw [Text.trimEnd, List.getLast?_reverse] at hc
  rwa [Option.mem_def.1 hc] at hhead

/-- A text whose blanks are dropped was there before, or ends with no blank now. -/
theorem mem_texts_dropBlank {q : Text.Quotes} {s : String} : ∀ {r : Fragment},
    s ∈ texts (dropBlank q r) → s ∈ texts r ∨ ∀ c ∈ s.toList.getLast?, Text.isBlank c = false
  | [], h => .inl h
  | p :: r, h => by
    have htail : s ∈ texts r → s ∈ texts (p :: r) := by
      rw [mem_texts, mem_texts]
      exact List.mem_cons_of_mem p
    rw [dropBlank] at h
    split at h
    · exact (mem_texts_dropBlank h).imp htail id
    · split at h
      · exact .inl h
      · rw [texts_text_cons] at h
        rcases List.mem_cons.1 h with rfl | h
        · rw [String.toList_ofList]
          exact .inr isBlank_of_mem_getLast?_trimEnd
        · exact .inl (htail h)

/-- The search that fills a table names nothing. -/
theorem definedNames_included {s : Create} {f : Fragment} (h : included d s values = .ok f) :
    firstName f = [] ∧ definedNames f = [] := by
  unfold included at h
  cases hs : s.included with
  | none =>
    simp only [hs, Except.ok.injEq] at h
    subst h
    exact ⟨rfl, rfl⟩
  | some find =>
    simp only [hs] at h
    split at h
    · cases h
    · obtain ⟨-, -, h⟩ := Run.outcome_bind_eq_ok.1 h
      obtain ⟨g, hg, h⟩ := Run.outcome_bind_eq_ok.1 h
      cases h
      have has : defines " AS " = false := by decide
      have hsearch : ∀ t ∈ joinTexts ++ searchTexts, defines t = false := by decide +kernel
      refine ⟨rfl, (definedNames_text_cons has _).trans (definedNames_of_texts fun t ht => ?_)⟩
      rw [trimEnd, mem_texts, List.mem_reverse, ← mem_texts] at ht
      rcases mem_texts_dropBlank ht with ht | ht
      · rw [mem_texts, List.mem_reverse, ← mem_texts] at ht
        exact hsearch t (texts_select_subset hg ht)
      · exact defines_eq_false ht

/-- **The names of indexes and constraints** in the commands of a table are those it
asks for, each cut to the length that every dialect takes. -/
theorem definedNames_perm {s : Create} {q : Query} (h : create d s values = .ok q) :
    q.definedNames.Perm
      (s.nameParts.map fun parts => constraintName s.collection parts.1 parts.2) := by
  obtain ⟨lines, fill, hlines, hfill, rfl⟩ := create_eq_ok h
  obtain ⟨hfirst, hnames⟩ := definedNames_included hfill
  have hcreate : defines "CREATE TABLE IF NOT EXISTS " = false := by decide
  have hopen : defines "(" = false := by decide
  have hcomma : defines "," = false := by decide
  have hclose : defines ")" = false := by decide
  have hend : defines ";" = false := by decide
  have hengine : firstName (engine d s) = [] ∧ definedNames (engine d s) = [] := by
    unfold engine
    split
    · split
      · exact ⟨rfl, definedNames_of_no_names (by simp)⟩
      · exact ⟨rfl, rfl⟩
    · exact ⟨rfl, rfl⟩
  have hlines' : definedNames (d.table s.collection ++ [.text "("] ++ Fragment.join "," lines) =
      lines.flatMap definedNames := by
    rw [List.append_assoc, definedNames_table_append, List.singleton_append,
      definedNames_text_cons hopen, definedNames_join hcomma]
  have hcommand : definedNames (.text "CREATE TABLE IF NOT EXISTS " :: (d.table s.collection ++
      [.text "("] ++ Fragment.join "," lines ++ [.text ")"] ++ engine d s ++ fill ++
      [.text ";"])) = lines.flatMap definedNames := by
    rw [definedNames_text_cons hcreate, definedNames_append (by rfl), definedNames_append hfirst,
      definedNames_append hengine.1, definedNames_append (by rfl), hlines', hengine.2, hnames,
      definedNames_text_cons hclose, definedNames_text_cons hend]
    simp
  rw [Query.definedNames, hcommand]
  exact definedNames_definitions_perm hlines

/-! ## Names that are the same -/

/-- The names that a column asks for are on its field, and those of indexes. -/
theorem of_mem_nameParts_column {c : Column} {parts : String × String}
    (h : parts ∈ (Definition.column c).nameParts) :
    parts.1 = c.field ∧ (parts.2 = "index" ∨ parts.2 = "unique") := by
  obtain ⟨ending, hending, rfl⟩ := List.mem_map.1 h
  obtain ⟨o, -, ho⟩ := List.mem_filterMap.1 hending
  refine ⟨rfl, ?_⟩
  cases o with
  | index => exact .inl (Option.some.inj ho).symm
  | uniqueIndex => exact .inr (Option.some.inj ho).symm
  | primaryKey | autoIncrement | notNull | unique => cases ho

/-- The endings of names hold no separator. -/
theorem separator_notMem_ending {x : Definition} {parts : String × String}
    (h : parts ∈ x.nameParts) : '_' ∉ parts.2.toList := by
  have hendings : ∀ ending ∈ ["index", "unique", "fk"], '_' ∉ ending.toList := by decide
  refine hendings parts.2 ?_
  cases x with
  | column c => rcases (of_mem_nameParts_column h).2 with hending | hending <;> simp [hending]
  | foreignKey field key =>
    obtain rfl := List.mem_singleton.1 h
    simp

/-- What stands behind the last separator, and what before it. -/
theorem append_separator_inj {before before' ending ending' : List Char} (h : '_' ∉ ending)
    (h' : '_' ∉ ending') (heq : before ++ '_' :: ending = before' ++ '_' :: ending') :
    before = before' ∧ ending = ending' := by
  rcases List.append_eq_append_iff.1 heq with ⟨middle, rfl, hrest⟩ | ⟨middle, rfl, hrest⟩
  · cases middle with
    | nil => exact ⟨(List.append_nil _).symm, (List.cons.inj hrest).2⟩
    | cons c middle => exact absurd (by simp [(List.cons.inj hrest).2]) h
  · cases middle with
    | nil => exact ⟨List.append_nil _, (List.cons.inj hrest).2.symm⟩
    | cons c middle => exact absurd (by simp [(List.cons.inj hrest).2]) h'

/-- **Names that are not cut are told apart** by their fields and endings. -/
theorem uncutName_injective {collection : CollectionRef} {parts parts' : String × String}
    (h : '_' ∉ parts.2.toList) (h' : '_' ∉ parts'.2.toList)
    (heq : uncutName collection parts = uncutName collection parts') : parts = parts' := by
  have hlist := congrArg String.toList heq
  simp only [uncutName, String.toList_append, List.append_assoc, List.append_cancel_left_eq] at hlist
  obtain ⟨hfield, hending⟩ := append_separator_inj h h' hlist
  exact Prod.ext (String.toList_inj.1 hfield) (String.toList_inj.1 hending)

/-- No name is asked for twice. -/
theorem nodup_nameParts {s : Create} (hs : s.Unrepeated) : s.nameParts.Nodup := by
  refine List.nodup_flatMap.2 ⟨fun x hx => ?_, ?_⟩
  · cases x with
    | column c =>
      have hendings : (indexEndings c).Nodup := by
        refine (hs.options c hx).filterMap fun o o' ending ho ho' => ?_
        cases o <;> cases ho <;> cases o' <;> first
          | rfl
          | exact absurd ho' (by decide)
      exact hendings.map fun _ _ heq => (Prod.ext_iff.1 heq).2
    | foreignKey field key => exact List.nodup_singleton _
  · have hcolumns := List.pairwise_filterMap.1 hs.columns
    have hkeys := List.pairwise_filterMap.1 hs.keys
    have hfk : ¬ ("fk" = "index" ∨ "fk" = "unique") := by decide
    refine (hcolumns.and hkeys).imp fun {x y} hxy parts hx hy => ?_
    cases x with
    | column c =>
      obtain ⟨hfield, hending⟩ := of_mem_nameParts_column hx
      cases y with
      | column c' =>
        exact hxy.1 _ rfl _ rfl (hfield.symm.trans (of_mem_nameParts_column hy).1)
      | foreignKey field key =>
        obtain rfl := List.mem_singleton.1 hy
        exact absurd hending hfk
    | foreignKey field key =>
      obtain rfl := List.mem_singleton.1 hx
      cases y with
      | column c => exact absurd (of_mem_nameParts_column hy).2 hfk
      | foreignKey field' key' =>
        exact hxy.2 _ rfl _ rfl (Prod.ext_iff.1 (List.mem_singleton.1 hy)).1

/-- Two names differ before the place where names are cut. -/
def DifferEarly (name name' : String) : Prop :=
  ∃ i < maxNameLength, name.toList[i]? ≠ name'.toList[i]?

/-- Names that are cut are the same unless they differ before. -/
theorem constraintName_ne_iff {collection : CollectionRef} {parts parts' : String × String} :
    constraintName collection parts.1 parts.2 ≠ constraintName collection parts'.1 parts'.2 ↔
      DifferEarly (uncutName collection parts) (uncutName collection parts') := by
  have hcut : ∀ parts : String × String, (constraintName collection parts.1 parts.2).toList =
      (uncutName collection parts).toList.take maxNameLength := fun _ => String.toList_ofList
  rw [DifferEarly, ← not_iff_not, not_ne_iff, ← String.toList_inj, hcut, hcut]
  push Not
  constructor
  · intro heq i hi
    have hat := congrArg (·[i]?) heq
    simpa only [List.getElem?_take_of_lt hi] using hat
  · intro hall
    refine List.ext_getElem? fun i => ?_
    rw [List.getElem?_take, List.getElem?_take]
    split
    · next hi => exact hall i hi
    · rfl

/-- A table with a long name, and two columns with an index that begin alike. -/
def historyTable : Create where
  collection := ⟨"shop", "customer_subscription_payment_reconciliation_history"⟩
  definitions := [.column ⟨"created_by_account", .integer, none, none, [.index]⟩,
    .column ⟨"created_by_assistant", .integer, none, none, [.index]⟩]
  engine := none
  included := none

/-- Names are not always different: two indexes of a table with a long name may get the
same one. -/
theorem definedNames_of_historyTable_not_nodup :
    ¬ ∀ d ∈ Dialect.builtin, ∀ s : Create, s.Unrepeated → ∀ values q,
      render d (.create s) values = .ok q → q.definedNames.Nodup := by
  intro h
  have hd : Dialect.sqlite ∈ Dialect.builtin := by simp [Dialect.builtin]
  have hs : historyTable.Unrepeated := by
    refine ⟨by decide, by decide, fun c hc => ?_⟩
    simp only [historyTable, List.mem_cons, List.not_mem_nil, or_false, Definition.column.injEq] at hc
    rcases hc with rfl | rfl <;> decide
  have hq : create .sqlite historyTable [] = .ok _ := rfl
  have hnodup := (definedNames_perm hq).nodup_iff.1 (h .sqlite hd historyTable hs [] _ hq)
  revert hnodup
  simp [historyTable, Create.nameParts, Definition.nameParts, indexEndings, indexKind,
    constraintName, maxNameLength]

/-- **Indexes and constraints have names of their own** as long as these differ in what
is left of them. In a table without repetitions there are as many as it asks for, and
no two would be the same if they were not cut: with names that are short enough, each
is made under a name that no other has. -/
theorem definedNames_nodup_iff {s : Create} (hs : s.Unrepeated) {q : Query}
    (h : render d (.create s) values = .ok q) :
    q.definedNames.Perm
        (s.nameParts.map fun parts => constraintName s.collection parts.1 parts.2) ∧
      (s.nameParts.map (uncutName s.collection)).Nodup ∧
      (q.definedNames.Nodup ↔ (s.nameParts.map (uncutName s.collection)).Pairwise DifferEarly) ∧
      ((∀ name ∈ s.nameParts.map (uncutName s.collection), name.length ≤ maxNameLength) →
        q.definedNames.Nodup) := by
  have hperm := definedNames_perm h
  have hsame : q.definedNames.Nodup ↔
      (s.nameParts.map (uncutName s.collection)).Pairwise DifferEarly := by
    rw [hperm.nodup_iff, List.Nodup, List.pairwise_map, List.pairwise_map]
    exact List.Pairwise.iff fun _ _ => constraintName_ne_iff
  have huncut : (s.nameParts.map (uncutName s.collection)).Nodup := by
    refine (List.nodup_map_iff_inj_on (nodup_nameParts hs)).2 fun parts hp parts' hp' heq => ?_
    obtain ⟨x, -, hx⟩ := List.mem_flatMap.1 hp
    obtain ⟨x', -, hx'⟩ := List.mem_flatMap.1 hp'
    exact uncutName_injective (separator_notMem_ending hx) (separator_notMem_ending hx') heq
  refine ⟨hperm, huncut, hsame, fun hshort => ?_⟩
  have hwhole : ∀ parts ∈ s.nameParts,
      constraintName s.collection parts.1 parts.2 = uncutName s.collection parts := by
    intro parts hparts
    have hlength := hshort _ (List.mem_map_of_mem hparts)
    rw [← String.length_toList] at hlength
    exact (congrArg String.ofList (List.take_of_length_le hlength)).trans String.ofList_toList
  rw [hperm.nodup_iff, List.map_congr_left hwhole]
  exact huncut

/-- A table with a foreign key, and two indexes on one column. -/
def usersTable : Create where
  collection := ⟨"shop", "users"⟩
  definitions := [.column ⟨"email", .integer, none, none, [.index, .uniqueIndex]⟩,
    .column ⟨"team_id", .integer, none, none, []⟩,
    .foreignKey "team_id" ⟨⟨"shop", "teams"⟩, "id", none, none⟩]
  engine := none
  included := none

theorem definedNames_of_usersTable_nodup : ∃ q, render .sqlite (.create usersTable) [] = .ok q ∧
    q.definedNames.length = 3 ∧ q.definedNames.Nodup := by
  have hs : usersTable.Unrepeated := by
    refine ⟨by decide, by decide, fun c hc => ?_⟩
    simp only [usersTable, List.mem_cons, List.not_mem_nil, or_false, Definition.column.injEq,
      reduceCtorEq] at hc
    rcases hc with rfl | rfl <;> decide
  have hq : render .sqlite (.create usersTable) [] = .ok _ := rfl
  have hshort : ∀ name ∈ usersTable.nameParts.map (uncutName usersTable.collection),
      name.length ≤ maxNameLength := by decide +kernel
  obtain ⟨hperm, -, -, hnodup⟩ := definedNames_nodup_iff hs hq
  exact ⟨_, hq, hperm.length_eq, hnodup hshort⟩

end Sql

end QueryLayer
