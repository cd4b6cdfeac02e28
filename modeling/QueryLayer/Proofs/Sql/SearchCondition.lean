import QueryLayer.Proofs.Sql.LegibleClause
import QueryLayer.Proofs.Sql.Token
import QueryLayer.Proofs.Meaning.Entries

/-!
# Search conditions

The boolean grammar of SQL. A search condition is a disjunction of
conjunctions of factors; a factor is a predicate, a negated factor or a search
condition in brackets. So `NOT` binds tighter than `AND`, and `AND` tighter
than `OR`, and the `AND` of a `BETWEEN` is part of its predicate.

`SearchCondition.read` reads a text with its bound values by this grammar. What
it yields is a formula whose leaves say which field is compared, in which way
and with which values.
-/

namespace QueryLayer

namespace Sql

/-- A field and the aggregation around it, as they are read. -/
abbrev Subject := Option Aggregation × List String

/-- What a predicate compares. A negation in the predicate itself is not part
of it. -/
structure Comparison where
  /-- The aggregation around the field. -/
  aggregation : Option Aggregation
  /-- The parts of the name of the field. -/
  parts : List String
  /-- What the field is compared with. -/
  criterion : Criterion

namespace Comparison

/-- The comparison that a test makes. -/
def ofTest (t : Test) : Comparison := ⟨t.target.aggregation, t.target.field.parts, t.criterion⟩

end Comparison

namespace SearchCondition

/-- The tokens behind a word. -/
def dropWord (w : String) : List Token → Option (List Token)
  | .word v :: ts => if v = w then some ts else none
  | _ => none

/-- The tokens behind a mark. -/
def dropMark (c : Char) : List Token → Option (List Token)
  | .mark b :: ts => if b = c then some ts else none
  | _ => none

/-! ## Predicates -/

/-- Names with points between them. -/
def path : List Token → Option (List String × List Token)
  | .name n :: .mark c :: ts =>
    if c = '.' then (path ts).map fun (ns, rest) => (n :: ns, rest)
    else some ([n], .mark c :: ts)
  | .name n :: ts => some ([n], ts)
  | _ => none

/-- A field, or an aggregation of one. -/
def subject (ts : List Token) : Option ((Option Aggregation × List String) × List Token) :=
  match ts with
  | .word w :: ts => do
    let a ← Aggregation.all.find? (·.keyword == w)
    let (ns, rest) ← (dropMark '(' ts).bind path
    let rest ← dropMark ')' rest
    return ((some a, ns), rest)
  | ts => (path ts).map fun (ns, rest) => ((none, ns), rest)

/-- Values with commas between them, up to the closing bracket. -/
def items : List Token → Option (List Value × List Token)
  | .value v :: .mark c :: ts =>
    if c = ',' then (items ts).map fun (vs, rest) => (v :: vs, rest)
    else if c = ')' then some ([v], ts)
    else none
  | _ => none

/-- What a field is compared with, and whether the comparison is negated. -/
def comparison : List Token → Option ((Bool × Criterion) × List Token)
  | .mark '=' :: .value v :: ts => some ((false, .equals v), ts)
  | .mark '<' :: .value v :: ts => some ((false, .lower v), ts)
  | .mark '>' :: .value v :: ts => some ((false, .higher v), ts)
  | .word "LIKE" :: .value v :: ts => some ((false, .like v), ts)
  | .word "IS" :: .word "NULL" :: ts => some ((false, .null), ts)
  | .word "IS" :: .word "NOT" :: .word "NULL" :: ts => some ((true, .null), ts)
  | .word "IN" :: .mark '(' :: ts => (items ts).map fun (vs, rest) => ((false, .oneOf vs), rest)
  | .word "BETWEEN" :: .value lower :: .word "AND" :: .value upper :: ts =>
    some ((false, .between lower upper), ts)
  | _ => none

/-- A predicate. -/
def predicate (ts : List Token) : Option (Formula Comparison × List Token) := do
  let ((a, ns), rest) ← subject ts
  let ((negated, k), rest) ← comparison rest
  return (.signed negated (.leaf ⟨a, ns, k⟩), rest)

/-! ## The boolean grammar -/

mutual

/-- A predicate, a negated factor, or a condition in brackets. -/
def factor : ℕ → List Token → Option (Formula Comparison × List Token)
  | 0, _ => none
  | n + 1, .word "NOT" :: ts => (factor n ts).map fun (f, rest) => (.not f, rest)
  | n + 1, .mark '(' :: ts =>
    (disjunction n ts).bind fun (fs, rest) => (dropMark ')' rest).map fun rest => (.any fs, rest)
  | _ + 1, ts => predicate ts

/-- Factors with `AND` between each two. -/
def conjunction : ℕ → List Token → Option (List (Formula Comparison) × List Token)
  | 0, _ => none
  | n + 1, ts =>
    (factor n ts).bind fun (f, rest) =>
      match dropWord "AND" rest with
      | some rest => (conjunction n rest).map fun (fs, rest) => (f :: fs, rest)
      | none => some ([f], rest)

/-- Conjunctions with `OR` between each two. -/
def disjunction : ℕ → List Token → Option (List (Formula Comparison) × List Token)
  | 0, _ => none
  | n + 1, ts =>
    (conjunction n ts).bind fun (fs, rest) =>
      match dropWord "OR" rest with
      | some rest => (disjunction n rest).map fun (gs, rest) => (.all fs :: gs, rest)
      | none => some ([.all fs], rest)

end

/-- A whole search condition. A token nests at most three calls, which bounds
the depth of reading. -/
def parse (ts : List Token) : Option (Formula Comparison) :=
  match disjunction (3 * ts.length + 2) ts with
  | some (fs, []) => some (.any fs)
  | _ => none

/-- The search condition of a text with its bound values. -/
def read (q : Text.Quotes) (text : List Char) (params : List Value) :
    Option (Formula Comparison) :=
  (readTokens q text params).bind parse

/-! ## Steps of reading -/

section

variable {n : ℕ} {ts rest rest' : List Token} {f : Formula Comparison}
  {fs : List (Formula Comparison)}

theorem conjunction_last (hf : factor n ts = some (f, rest)) (hand : dropWord "AND" rest = none) :
    conjunction (n + 1) ts = some ([f], rest) := by
  simp [conjunction, hf, hand]

theorem conjunction_more (hf : factor n ts = some (f, .word "AND" :: rest))
    (hfs : conjunction n rest = some (fs, rest')) :
    conjunction (n + 1) ts = some (f :: fs, rest') := by
  simp [conjunction, hf, dropWord, hfs]

theorem disjunction_last (hf : conjunction n ts = some (fs, rest))
    (hor : dropWord "OR" rest = none) : disjunction (n + 1) ts = some ([.all fs], rest) := by
  simp [disjunction, hf, hor]

theorem disjunction_more {gs : List (Formula Comparison)}
    (hf : conjunction n ts = some (fs, .word "OR" :: rest))
    (hgs : disjunction n rest = some (gs, rest')) :
    disjunction (n + 1) ts = some (.all fs :: gs, rest') := by
  simp [disjunction, hf, dropWord, hgs]

theorem factor_not (hf : factor n ts = some (f, rest)) :
    factor (n + 1) (.word "NOT" :: ts) = some (.not f, rest) := by
  simp [factor, hf]

theorem factor_bracketed (hfs : disjunction n ts = some (fs, .mark ')' :: rest)) :
    factor (n + 1) (.mark '(' :: ts) = some (.any fs, rest) := by
  simp [factor, hfs, dropMark]

/-- What begins with neither a negation nor a bracket is a predicate. -/
theorem factor_predicate {t : Token} (hnot : t ≠ .word "NOT") (hopen : t ≠ .mark '(') :
    factor (n + 1) (t :: ts) = predicate (t :: ts) := by
  rw [factor]
  · rintro ts' ⟨⟩
    exact hnot rfl
  · rintro ts' ⟨⟩
    exact hopen rfl

end

/-! ## Reading a test -/

open Fragment

theorem path_cons (n : String) {rest : List Token} (h : dropMark '.' rest = none) :
    path (.name n :: rest) = some ([n], rest) := by
  cases rest with
  | nil => rfl
  | cons t rest =>
    cases t with
    | mark c =>
      have hc : c ≠ '.' := by
        intro hc
        simp [dropMark, hc] at h
      rw [path, if_neg hc]
    | word w | name n | literal cs | value v => rfl

theorem tokens_name (n : String) : (Piece.name n).tokens = [.name n] := by
  simp [Piece.tokens, Piece.lexemes, tokensFrom, Token.ofWord, Token.ofQuoted]

/-- The names of a field are read as a path. -/
theorem path_join {rest : List Token} (h : dropMark '.' rest = none) (n : String) :
    ∀ ns : List String,
      path (tokens (Fragment.join "." ((n :: ns).map fun part => [.name part])) ++ rest) =
        some (n :: ns, rest)
  | [] => by
    rw [List.map_singleton, join_singleton, tokens_cons, tokens_name, tokens_nil, List.append_nil]
    exact path_cons n h
  | m :: ns => by
    have hpoint : (Piece.text ".").tokens = [.mark '.'] := rfl
    have ih := path_join h m ns
    rw [List.map_cons] at ih
    rw [List.map_cons, List.map_cons, join_cons_cons]
    simp only [tokens_cons, tokens_name, hpoint, List.cons_append, List.nil_append]
    rw [path, if_pos rfl, ih]
    rfl

theorem path_fieldName {rest : List Token} (h : dropMark '.' rest = none) (f : FieldRef) :
    path (tokens (fieldName f) ++ rest) = some (f.parts, rest) := by
  obtain ⟨n, ns, hparts⟩ : ∃ n ns, f.parts = n :: ns := by
    obtain ⟨database, collection, field⟩ := f
    cases database <;> cases collection <;> simp [FieldRef.parts]
  rw [fieldName, hparts]
  exact path_join h n ns

/-- The first token of a field is a name. -/
theorem tokens_fieldName (f : FieldRef) : ∃ n ts, tokens (fieldName f) = .name n :: ts := by
  have hpath : path (tokens (fieldName f) ++ []) = some (f.parts, []) := path_fieldName rfl f
  rw [List.append_nil] at hpath
  cases hts : tokens (fieldName f) with
  | nil => simp [hts, path] at hpath
  | cons t ts =>
    cases t with
    | name n => exact ⟨n, ts, rfl⟩
    | word w | mark c | literal cs | value v => simp [hts, path] at hpath

/-- An aggregation is found by its word. -/
theorem find?_keyword (a : Aggregation) :
    Aggregation.all.find? (·.keyword == a.keyword) = some a := by
  cases a <;> rfl

theorem tokens_aggregation (a : Aggregation) :
    (Piece.text (a.keyword ++ "(")).tokens = [.word a.keyword, .mark '('] := by
  cases a <;> rfl

/-- **A target is read as its aggregation and the parts of its field.** -/
theorem subject_target (t : Target) {rest : List Token} (h : dropMark '.' rest = none) :
    subject (tokens (target t) ++ rest) = some ((t.aggregation, t.field.parts), rest) := by
  obtain ⟨field, aggregation⟩ := t
  cases aggregation with
  | none =>
    obtain ⟨n, ts, hts⟩ := tokens_fieldName field
    have hpath := path_fieldName h field
    simp only [target]
    rw [hts] at hpath ⊢
    rw [List.cons_append] at hpath ⊢
    rw [subject, hpath]
    · rfl
    · rintro w ts' ⟨⟩
  | some a =>
    have hclose : (Piece.text ")").tokens = [.mark ')'] := rfl
    simp only [target, tokens_cons, tokens_append, tokens_nil, tokens_aggregation, hclose,
      List.append_nil, List.append_assoc, List.cons_append, List.nil_append]
    simp only [subject, find?_keyword, dropMark, Option.bind_eq_bind, Option.bind_some, if_true]
    rw [path_fieldName (by simp [dropMark]) field]
    simp

/-- A target begins with a name or the word of an aggregation. -/
theorem tokens_target (t : Target) :
    ∃ head ts, tokens (target t) = head :: ts ∧ head ≠ .word "NOT" ∧ head ≠ .mark '(' := by
  obtain ⟨field, aggregation⟩ := t
  cases aggregation with
  | none =>
    obtain ⟨n, ts, hts⟩ := tokens_fieldName field
    exact ⟨.name n, ts, hts, by simp, by simp⟩
  | some a =>
    have hword : a.keyword ≠ "NOT" := by cases a <;> decide
    refine ⟨.word a.keyword, .mark '(' :: tokens (fieldName field ++ [.text ")"]), ?_,
      by simpa using hword, by simp⟩
    simp only [target, tokens_cons, tokens_aggregation, List.cons_append, List.nil_append]

/-- The items of a list are read up to the bracket behind them. -/
theorem items_itemSlots {vs : List Value} (hvs : vs ≠ []) (rest : List Token) :
    items (tokens (itemSlots vs) ++ .mark ')' :: rest) = some (vs, rest) := by
  have hcomma : (Piece.text ",").tokens = [.mark ','] := rfl
  have hslot : ∀ s v, (Piece.slot s v).tokens = [.value v] := fun _ _ => rfl
  -- the places of the items play no part in reading
  have hplaces : ∀ (vs : List Value) (k : ℕ), vs ≠ [] →
      items (tokens (Fragment.join "," (vs.mapIdx fun i v => [.slot (.item (i + k)) v])) ++
        .mark ')' :: rest) = some (vs, rest) := by
    intro vs
    induction vs with
    | nil => intro k h; exact absurd rfl h
    | cons v vs ih =>
      intro k _
      cases vs with
      | nil => simp [join_singleton, hslot, items]
      | cons u us =>
        have ih := ih (k + 1) (by simp)
        have hshift : (fun i v => [Piece.slot (.item (i + 1 + k)) v]) =
            fun i v => [Piece.slot (.item (i + (k + 1))) v] := by
          funext i v
          rw [Nat.add_assoc, Nat.add_comm 1 k]
        rw [List.mapIdx_cons, hshift]
        rw [List.mapIdx_cons] at ih ⊢
        rw [join_cons_cons]
        simp only [tokens_cons, hcomma, hslot, List.cons_append, List.nil_append]
        rw [items, if_pos rfl, ih]
        rfl
  exact hplaces vs 0 hvs

end SearchCondition

end Sql

end QueryLayer
