import QueryLayer.Proofs.Sql.SearchCondition
import QueryLayer.Proofs.Sql.Trimmed

/-!
# What a placeholder stands for

The text before a placeholder says what its value is for: the field that is assigned
or compared and how, the place in a list, the bound of a range, the window, the column
of a default, or the row and the column of a cell. `Place.of` reads this from the
tokens alone, from the placeholder backwards, and `readPlaces` reads the places of all
placeholders of a text.

Fragments are then read one behind the other (`Reads.append`), each with the tokens
that stand before it. What binds no value has no places whatever it holds
(`Reads.silent`), so that only what a placeholder looks back at has to be followed.
-/

namespace QueryLayer

namespace Sql

/-- What the value of a placeholder is for. -/
inductive Place where
  /-- An assignment to a field, by a calculation with its value or without one. -/
  | assignment (field : List String) (operator : Option Arithmetic)
  /-- A comparison of a subject. -/
  | operand (kind : ConditionKind) (subject : Subject)
  /-- An item of the list that a subject is looked up in. -/
  | item (subject : Subject) (index : ℕ)
  | lowerBound (subject : Subject)
  | upperBound (subject : Subject)
  | limit
  | offset
  /-- The default of a column. -/
  | default (column : String)
  /-- A cell of an insert, and the name of its column. -/
  | cell (row column : ℕ) (name : List String)
deriving DecidableEq, Repr

namespace Token

/-- The value in the place of a placeholder. -/
def value? : Token → Option Value
  | .value v => some v
  | _ => none

/-- The content of a quoted name. -/
def name? : Token → Option String
  | .name n => some n
  | _ => none

end Token

/-! ## Reading backwards

The tokens before a placeholder are given from the nearest one on. -/

namespace Place

open SearchCondition

/-- Names with points between them, behind those already read. -/
def path (names : List String) : List Token → Option (List String × List Token)
  | .name n :: .mark '.' :: ts => path (n :: names) ts
  | .name n :: ts => some (n :: names, ts)
  | _ => none

/-- A field, or an aggregation of one. -/
def subject : List Token → Option (Subject × List Token)
  | .mark ')' :: ts =>
    match path [] ts with
    | some (ns, .mark '(' :: .word w :: rest) =>
      (Aggregation.all.find? (·.keyword == w)).map fun a => ((some a, ns), rest)
    | _ => none
  | ts => (path [] ts).map fun (ns, rest) => ((none, ns), rest)

/-- A condition of a filter begins here. -/
def opensCondition : List Token → Bool
  | .word w :: _ => ["WHERE", "AND", "OR", "NOT"].contains w
  | .mark c :: _ => c == '('
  | _ => false

/-- An assignment begins here. -/
def opensAssignment : List Token → Bool
  | .word w :: _ => w == "SET"
  | .mark c :: _ => c == ','
  | _ => false

/-- What is asked of the subject of a condition. -/
def condition (k : Subject → Place) (ts : List Token) : Option Place :=
  (subject ts).bind fun (s, rest) => if opensCondition rest then some (k s) else none

/-- What is assigned to a field. -/
def assigned (operator : Option Arithmetic) (ts : List Token) : Option Place :=
  (path [] ts).bind fun (ns, rest) =>
    if opensAssignment rest then some (.assignment ns operator) else none

/-- A calculation with the value of the field it is assigned to. -/
def calculated (operator : Arithmetic) (ts : List Token) : Option Place :=
  (path [] ts).bind fun (ns, rest) => (dropMark '=' rest).bind fun rest =>
    (assigned (some operator) rest).filter (· = .assignment ns (some operator))

/-- The calculation of a sign. -/
def calculation : Char → Option Arithmetic
  | '+' => some .add
  | '-' => some .subtract
  | '*' => some .multiply
  | '/' => some .divide
  | _ => none

/-- The values between here and the bracket that opens their list. -/
def index : List Token → Option (ℕ × List Token)
  | .mark '(' :: ts => some (0, ts)
  | .mark ',' :: .value _ :: ts => (index ts).map fun (i, rest) => (i + 1, rest)
  | _ => none

/-- The rows between here and the word that begins them. -/
def row : List Token → Option (ℕ × List Token)
  | [] => none
  | .word "VALUES" :: ts => some (0, ts)
  | .mark '(' :: ts => (row ts).map fun (r, rest) => (r + 1, rest)
  | _ :: ts => row ts

/-- The columns up to the bracket that opens their list, behind those already read. -/
def columns (names : List String) (paths : List (List String)) :
    List Token → Option (List (List String))
  | .name n :: .mark '.' :: ts => columns (n :: names) paths ts
  | .name n :: .mark ',' :: ts => columns [] ((n :: names) :: paths) ts
  | .name n :: .mark '(' :: _ => some ((n :: names) :: paths)
  | _ => none

/-- A cell of a row, in the column of its index. -/
def celled (i : ℕ) (ts : List Token) : Option Place :=
  (row ts).bind fun (r, rest) => (dropMark ')' rest).bind fun rest =>
    (columns [] [] rest).bind fun names => names[i]?.map (.cell r i)

/-- A value of a list. -/
def listed (ts : List Token) : Option Place :=
  (index ts).bind fun (i, rest) =>
    match rest with
    | .word "IN" :: rest => condition (.item · i) rest
    | rest => celled i rest

/-- **What a placeholder stands for**, by the tokens before it. -/
def of : List Token → Option Place
  | .word "LIMIT" :: _ => some .limit
  | .word "NEXT" :: .word "FETCH" :: _ => some .limit
  | .word "OFFSET" :: _ => some .offset
  | .word "DEFAULT" :: ts => (ts.findSome? Token.name?).map .default
  | .word "LIKE" :: ts => condition (.operand .like) ts
  | .word "BETWEEN" :: ts => condition .lowerBound ts
  | .word "AND" :: .value _ :: .word "BETWEEN" :: ts => condition .upperBound ts
  | .mark c :: ts =>
    match c with
    | '=' => (assigned none ts).orElse fun _ => condition (.operand .equals) ts
    | '<' => condition (.operand .lower) ts
    | '>' => condition (.operand .higher) ts
    | '(' | ',' => listed (.mark c :: ts)
    | c => (calculation c).bind fun operator => calculated operator ts
  | _ => none

end Place

/-- The places of the values among tokens, and the values, behind the tokens
`before`. -/
def placesFrom (before : List Token) : List Token → Option (List (Place × Value))
  | [] => some []
  | .value v :: ts => (Place.of before).bind fun p =>
    (placesFrom (.value v :: before) ts).map ((p, v) :: ·)
  | t :: ts => placesFrom (t :: before) ts

/-- The places of the placeholders of a text, with the values bound to them. -/
def readPlaces (q : Text.Quotes) (text : List Char) (params : List Value) :
    Option (List (Place × Value)) :=
  (readTokens q text params).bind (placesFrom [])

/-! ## Fields and targets, read backwards -/

open Fragment

/-- Names with points between them. -/
def dotted (ns : List String) : Fragment := Fragment.join "." (ns.map fun n => [.name n])

theorem fieldName_eq_dotted (f : FieldRef) : fieldName f = dotted f.parts := rfl

theorem name_eq_dotted (n : String) : [Piece.name n] = dotted [n] := by
  rw [dotted, List.map_singleton, join_singleton]

theorem slots_dotted (ns : List String) : slots (dotted ns) = [] := by
  simp [dotted, List.flatMap_map]

/-- A reading that goes over a name and a point goes over names with points between
them, up to the first one. -/
theorem reverse_dotted {γ : Type} {k : List String → List Token → γ}
    (hk : ∀ names n ts, k names (.name n :: .mark '.' :: ts) = k (n :: names) ts)
    (names : List String) (n : String) : ∀ (ns : List String) (b : List Token),
      k names ((tokens (dotted (n :: ns))).reverse ++ b) = k (ns ++ names) (.name n :: b) := by
  intro ns
  induction ns generalizing n with
  | nil =>
    intro b
    rw [← name_eq_dotted, tokens_cons, SearchCondition.tokens_name]
    rfl
  | cons m ns ih =>
    intro b
    have htokens : tokens (dotted (n :: m :: ns)) =
        .name n :: .mark '.' :: tokens (dotted (m :: ns)) := by
      simp only [dotted, List.map_cons, join_cons_cons, tokens_append, tokens_cons,
        SearchCondition.tokens_name, tokens_nil]
      rfl
    rw [htokens, List.reverse_cons, List.reverse_cons, List.append_assoc, List.append_assoc, ih]
    exact hk _ _ _

namespace Place

open SearchCondition

variable {b : List Token}

/-- Names end where no point stands before them. -/
theorem path_name (hb : dropMark '.' b = none) (names : List String) (n : String) :
    path names (.name n :: b) = some (n :: names, b) := by
  rw [path.eq_def]
  split
  · next h =>
    cases h
    simp [dropMark] at hb
  · next h =>
    cases h
    rfl
  · next h => exact absurd rfl (h n b)

theorem parts_eq_cons (f : FieldRef) : ∃ n ns, f.parts = n :: ns := by
  obtain ⟨database, collection, field⟩ := f
  cases database <;> cases collection <;> simp [FieldRef.parts]

theorem path_reverse_fieldName (hb : dropMark '.' b = none) (f : FieldRef) :
    path [] ((tokens (fieldName f)).reverse ++ b) = some (f.parts, b) := by
  obtain ⟨n, ns, hparts⟩ := parts_eq_cons f
  rw [fieldName_eq_dotted, hparts, reverse_dotted (k := path) (fun _ _ _ => rfl), path_name hb,
    List.append_nil]

/-- Only a name ends a path. -/
theorem exists_name_of_path {names : List String} {ts : List Token}
    {r : List String × List Token} (h : path names ts = some r) : ∃ n rest, ts = .name n :: rest := by
  cases ts with
  | nil => cases h
  | cons t ts =>
    cases t with
    | name n => exact ⟨n, ts, rfl⟩
    | word w | mark c | literal content | value v => simp [path] at h

/-- **A target is read backwards** as its aggregation and the parts of its field. -/
theorem subject_reverse_target (hb : dropMark '.' b = none) (t : Target) :
    subject ((tokens (target t)).reverse ++ b) = some ((t.aggregation, t.field.parts), b) := by
  obtain ⟨field, aggregation⟩ := t
  cases aggregation with
  | none =>
    have hpath := path_reverse_fieldName hb field
    simp only [target]
    obtain ⟨n, rest, hts⟩ := exists_name_of_path hpath
    rw [hts] at hpath ⊢
    simp only [subject, hpath]
    rfl
  | some a =>
    have hclose : (Piece.text ")").tokens = [.mark ')'] := rfl
    have hpath := path_reverse_fieldName (b := .mark '(' :: .word a.keyword :: b) rfl field
    simp only [target, tokens_cons, tokens_append, tokens_nil, tokens_aggregation, hclose,
      List.reverse_append, List.reverse_cons, List.reverse_nil, List.nil_append,
      List.append_assoc, List.cons_append, List.append_nil]
    simp only [subject, hpath, find?_keyword, Option.map_some]

/-! ## What is read at a placeholder -/

theorem dropMark_of_opensCondition (hb : opensCondition b = true) : dropMark '.' b = none := by
  cases b with
  | nil => rfl
  | cons t b =>
    cases t with
    | mark c =>
      obtain rfl : c = '(' := by simpa [opensCondition] using hb
      rfl
    | word w | name n | literal content | value v => rfl

theorem dropMark_of_opensAssignment (hb : opensAssignment b = true) : dropMark '.' b = none := by
  cases b with
  | nil => rfl
  | cons t b =>
    cases t with
    | mark c =>
      obtain rfl : c = ',' := by simpa [opensAssignment] using hb
      rfl
    | word w | name n | literal content | value v => rfl

/-- No condition begins where an assignment does. -/
theorem opensAssignment_of_opensCondition (hb : opensCondition b = true) :
    opensAssignment b = false := by
  cases b with
  | nil => rfl
  | cons t b =>
    cases t with
    | mark c =>
      obtain rfl : c = '(' := by simpa [opensCondition] using hb
      rfl
    | word w =>
      have hw : w = "WHERE" ∨ w = "AND" ∨ w = "OR" ∨ w = "NOT" := by
        simpa [opensCondition] using hb
      rcases hw with rfl | rfl | rfl | rfl <;> rfl
    | name n | literal content | value v => rfl

theorem condition_reverse_target (hb : opensCondition b = true) (k : Subject → Place)
    (t : Target) : condition k ((tokens (target t)).reverse ++ b) =
      some (k (t.aggregation, t.field.parts)) := by
  simp [condition, subject_reverse_target (dropMark_of_opensCondition hb), hb]

theorem assigned_reverse_fieldName (hb : opensAssignment b = true)
    (operator : Option Arithmetic) (f : FieldRef) :
    assigned operator ((tokens (fieldName f)).reverse ++ b) =
      some (.assignment f.parts operator) := by
  simp [assigned, path_reverse_fieldName (dropMark_of_opensAssignment hb), hb]

/-- A condition is no assignment. -/
theorem assigned_reverse_target (hb : opensCondition b = true) (operator : Option Arithmetic)
    (t : Target) : assigned operator ((tokens (target t)).reverse ++ b) = none := by
  obtain ⟨field, aggregation⟩ := t
  cases aggregation with
  | none =>
    simp [target, assigned, path_reverse_fieldName (dropMark_of_opensCondition hb),
      opensAssignment_of_opensCondition hb]
  | some a =>
    have hclose : (Piece.text ")").tokens = [.mark ')'] := rfl
    simp only [target, tokens_cons, tokens_append, tokens_nil, hclose, List.reverse_append,
      List.reverse_cons, List.append_assoc]
    rfl

theorem calculated_reverse_fieldName (hb : opensAssignment b = true) (operator : Arithmetic)
    (f : FieldRef) :
    calculated operator ((tokens (fieldName f)).reverse ++
      .mark '=' :: ((tokens (fieldName f)).reverse ++ b)) =
        some (.assignment f.parts (some operator)) := by
  have hpath := path_reverse_fieldName (b := .mark '=' :: ((tokens (fieldName f)).reverse ++ b)) rfl f
  simp [calculated, hpath, dropMark, assigned_reverse_fieldName hb]

/-- A value of a list is read as one. -/
theorem of_eq_listed {r : ℕ × List Token} (hb : index b = some r) : of b = listed b := by
  cases b with
  | nil => cases hb
  | cons t b =>
    cases t with
    | mark c =>
      by_cases hopen : c = '('
      · subst hopen
        rfl
      · by_cases hcomma : c = ','
        · subst hcomma
          rfl
        · rw [index.eq_def] at hb
          simp_all
    | word w | name n | literal content | value v => simp [index] at hb

end Place

end Sql

end QueryLayer
