import QueryLayer.Proofs.Pattern.Unescaped
import QueryLayer.Proofs.Sql.Filter
import QueryLayer.Sql.Render

/-!
# LIKE predicates

A LIKE predicate compares a field with a pattern and may name its own escape
character in an `ESCAPE` clause. Without such a clause the escape character is
that of the engine (`Dialect.like`): MySQL, MariaDB, H2 and PostgreSQL have the
backslash, while SQLite and SQL Server have none. SQL Server also reads sets of
characters in brackets.

Filters are written without an `ESCAPE` clause, so each predicate leaves its
pattern to the engine. The two agree on every pattern where the backslash
escapes, and elsewhere on the patterns without special characters
(`filter_likes_described`).
-/

namespace QueryLayer

/-- How an engine reads LIKE patterns by itself. -/
def Dialect.like (d : Dialect) : Like.Rules :=
  if d.name = "SQLite" then ⟨none, false⟩
  else if d.name = "MsSQL" then ⟨none, true⟩
  else .standard

example : Dialect.builtin.map Dialect.like =
    [.standard, .standard, .standard, ⟨none, true⟩, .standard, ⟨none, false⟩] := by decide

/-- The backslash escapes, or nothing does. -/
theorem Dialect.like_eq_standard_or (d : Dialect) : d.like = .standard ∨ d.like.escape = none := by
  unfold Dialect.like
  split_ifs with hsqlite hmssql
  · exact .inr rfl
  · exact .inr rfl
  · exact .inl rfl

namespace Sql

open Fragment SearchCondition

/-- A LIKE predicate as an engine reads it. -/
structure LikePredicate where
  negated : Bool
  /-- The aggregation around the field. -/
  aggregation : Option Aggregation
  /-- The parts of the name of the field. -/
  parts : List String
  /-- What the field is compared with. -/
  pattern : Value
  /-- The character of the `ESCAPE` clause. -/
  escape : Option Char

namespace LikePredicate

/-! ## Reading -/

/-- The character of an `ESCAPE` clause, where there is one. -/
def escapeClause : List Token → Option (Option Char)
  | [] => some none
  | [.word "ESCAPE", .literal [c]] => some (some c)
  | _ => none

/-- A field, a pattern and the clause behind them. -/
def body (negated : Bool) (ts : List Token) : Option LikePredicate := do
  let ((a, ns), rest) ← subject ts
  match rest with
  | .word "LIKE" :: .value v :: rest => (escapeClause rest).map fun e => ⟨negated, a, ns, v, e⟩
  | _ => none

/-- A whole predicate. -/
def parse : List Token → Option LikePredicate
  | .word "NOT" :: ts => body true ts
  | ts => body false ts

/-- The LIKE predicate of a text with its bound values. -/
def read (q : Text.Quotes) (text : List Char) (params : List Value) : Option LikePredicate :=
  (readTokens q text params).bind parse

/-! ## Evaluation -/

/-- What the engine goes by: a clause of the predicate comes before its own
escape character. -/
def rules (r : Like.Rules) (l : LikePredicate) : Like.Rules :=
  { r with escape := l.escape.or r.escape }

/-- The engine accepts a subject as the value of the field. -/
def Accepts (r : Like.Rules) (l : LikePredicate) (subject : List Char) : Prop :=
  match l.pattern with
  | .text s => Like.Matches (l.rules r) s.toList subject ↔ l.negated = false
  | _ => False

end LikePredicate

/-! ## Tests -/

/-- The predicate that a test for a pattern is. -/
def likeOf (negated : Bool) (t : Target) (v : Value) : LikePredicate :=
  ⟨negated, t.aggregation, t.field.parts, v, none⟩

/-- **A test for a pattern is read as a predicate without `ESCAPE` clause.** -/
theorem read_test_like {q : Text.Quotes} (hq : Known q) (negated : Bool) (t : Target) (v : Value) :
    LikePredicate.read q ((test negated ⟨t, .like v⟩).write q) (test negated ⟨t, .like v⟩).bound =
      some (likeOf negated t v) := by
  have hlike : tokens [.text " LIKE ", .slot .operand v] = [.word "LIKE", .value v] := rfl
  have hsubject : subject (tokens (target t) ++ [.word "LIKE", .value v]) =
      some ((t.aggregation, t.field.parts), [.word "LIKE", .value v]) := subject_target t rfl
  have hbody : LikePredicate.body negated (tokens (target t) ++ [.word "LIKE", .value v]) =
      some (likeOf negated t v) := by
    rw [LikePredicate.body, hsubject]
    rfl
  rw [LikePredicate.read, readTokens_write hq (legible_test negated _), Option.bind_some]
  simp only [test, comparison, tokens_append, hlike, List.append_assoc]
  cases negated with
  | true => exact hbody
  | false =>
    -- a field never begins like a negation
    obtain ⟨head, ts, hts, hnot, -⟩ := tokens_target t
    have hnegation : tokens (negation false) = [] := rfl
    rw [hnegation, List.nil_append]
    rw [hts, List.cons_append] at hbody ⊢
    rw [LikePredicate.parse, hbody]
    rintro ts' ⟨⟩
    exact hnot rfl

/-! ## Tests in a filter -/

theorem infix_bracket (negated : Bool) (connector : OperationKind) {g : Fragment}
    {fs : List Fragment} (hg : g ∈ fs) : g <:+: bracket negated connector fs := by
  have hopen : Fragment.join (" " ++ connector.keyword ++ " ") fs <:+:
      bracket negated connector fs :=
    ⟨negation negated ++ [.text "("], [.text ")"], rfl⟩
  exact (infix_join hg).trans hopen

/-- The test, negated or not, stands in one of the fragments. -/
def Stands (t : Test) (fs : List Fragment) : Prop := ∃ negated, ∃ f ∈ fs, test negated t <:+: f

theorem Stands.bracket {t : Test} {fs : List Fragment} (h : Stands t fs) (negated : Bool)
    (connector : OperationKind) : Stands t [bracket negated connector fs] := by
  obtain ⟨negated', f, hf, hstands⟩ := h
  exact ⟨negated', _, List.mem_singleton_self _, hstands.trans (infix_bracket negated connector hf)⟩

mutual

/-- Every test of a predicate stands in its operands. -/
theorem stands_operands : ∀ (negated : Bool) (p : Predicate), ∀ t ∈ p.formula.leaves,
    Stands t (operands negated p)
  | negated, .test t', t, ht => by
    obtain rfl := List.mem_singleton.1 ht
    exact ⟨negated, _, List.mem_singleton_self _, List.infix_rfl⟩
  | negated, .not p, t, ht => by
    rw [operands]
    exact stands_operands (!negated) p t ht
  | negated, .all ps, t, ht => by
    rw [operands]
    exact (stands_operandsAll ps t ht).bracket negated .and
  | negated, .any ps, t, ht => by
    rw [operands]
    exact (stands_operandsAll ps t ht).bracket negated .or

/-- The same for several predicates. -/
theorem stands_operandsAll : ∀ (ps : List Predicate), ∀ t ∈ Predicate.tests ps,
    Stands t (operandsAll false ps)
  | [], t, ht => absurd ht List.not_mem_nil
  | p :: ps, t, ht => by
    rw [operandsAll]
    rcases List.mem_append.1 ht with ht | ht
    · obtain ⟨negated, f, hf, hstands⟩ := stands_operands false p t ht
      exact ⟨negated, f, List.mem_append_left _ hf, hstands⟩
    · obtain ⟨negated, f, hf, hstands⟩ := stands_operandsAll ps t ht
      exact ⟨negated, f, List.mem_append_right _ hf, hstands⟩

end

/-- Every test of some predicates stands in their filter. -/
theorem test_infix_filter {ps : List Predicate} {t : Test} (ht : t ∈ Predicate.tests ps) :
    ∃ negated, test negated t <:+: filter ps := by
  have hne : ps ≠ [] := by
    rintro rfl
    exact absurd ht List.not_mem_nil
  obtain ⟨negated, f, hf, hstands⟩ := stands_operandsAll ps t ht
  rw [filter_of_ne_nil hne]
  exact ⟨negated, List.infix_cons (hstands.trans (infix_join hf))⟩

/-! ## Agreement -/

open Pattern

variable {d : Dialect}

/-- A predicate accepts what a pattern describes exactly if its engine reads the
text of the pattern so. A negation in front makes no difference. -/
theorem accepts_iff_described {r : Like.Rules} {negated : Bool} {t : Target} {start : Start}
    {calls : List Call} :
    (∀ subject, (likeOf negated t (.text (build start calls).text)).Accepts r subject ↔
      (Describes (asked start calls) subject ↔ negated = false)) ↔
    ∀ subject, Like.Matches r ((asked start calls).flatMap Part.like) subject ↔
      Describes (asked start calls) subject := by
  have htext : (build start calls).text.toList = (asked start calls).flatMap Part.like := by
    rw [text, String.toList_ofList, like, parts_build]
  refine forall_congr' fun subject => ?_
  simp only [LikePredicate.Accepts, likeOf, htext]
  cases negated <;> tauto

/-- **Where the backslash escapes, patterns mean the same as their text, and
elsewhere those that hold no special character.** -/
theorem matches_iff_escapes_or_unmarked (d : Dialect) (parts : List Part) :
    (∀ subject, Like.Matches d.like (parts.flatMap Part.like) subject ↔ Describes parts subject) ↔
      d.like.escape = some '\\' ∨ Unmarked d.like parts := by
  rcases d.like_eq_standard_or with hstandard | hnone
  · rw [hstandard]
    exact iff_of_true (fun subject => matches_like) (.inl rfl)
  · rw [matches_like_iff_unmarked hnone, hnone]
    exact (or_iff_right (Option.some_ne_none _).symm).symm

/-- Every condition of a statement has its test in the plan. -/
theorem exists_test_of_mem_leaves {r : Rules} {es : List Entry} {values : List Value} {p : Plan}
    (hp : p.IsOf r es values) {c : Condition} (hc : c ∈ (Entry.meaning es).leaves) :
    ∃ t ∈ Predicate.tests p.predicates, c.Yields t := by
  have hyields : List.Forall₂ Condition.Yields (Entry.meaning es).leaves
      (Predicate.tests p.predicates) := hp.alike.forall₂_leavesAll
  obtain ⟨i, hi, rfl⟩ := List.mem_iff_getElem.1 hc
  have hi' : i < (Predicate.tests p.predicates).length := hyields.length_eq ▸ hi
  exact ⟨_, List.getElem_mem hi', hyields.get hi hi'⟩

/-- A condition for a pattern yields a test for a text that it may be given. -/
theorem exists_like_of_yields {c : Condition} {t : Test} (h : c.Yields t) (hlike : c.kind = .like) :
    ∃ v, c.value.Gives v ∧ t = ⟨c.target, .like v⟩ := by
  obtain ⟨target, criterion⟩ := t
  obtain ⟨rfl, h⟩ := h
  cases criterion with
  | like v =>
    simp only [hlike] at h
    exact ⟨v, h, rfl⟩
  | equals | lower | higher | null | oneOf | between => simp [hlike] at h

/-- **Patterns mean what they describe on the engines where the backslash
escapes.** Every LIKE condition of a statement stands in its filter as a
predicate without `ESCAPE` clause. With the text of a built pattern, the
predicate accepts exactly the subjects that the calls describe if the backslash
is the escape character of the engine or the added texts hold nothing special
for it, and only then. -/
theorem filter_likes_described {d : Dialect} (hd : d ∈ Dialect.builtin) {statement : String}
    {es : List Entry} {values : List Value} {p : Plan} (hp : p.IsOf (rules d statement) es values)
    {c : Condition} (hc : c ∈ (Entry.meaning es).leaves) (hlike : c.kind = .like) :
    ∃ v negated, c.value.Gives v ∧ test negated ⟨c.target, .like v⟩ <:+: filter p.predicates ∧
      LikePredicate.read d.quotes ((test negated ⟨c.target, .like v⟩).write d.quotes)
        (test negated ⟨c.target, .like v⟩).bound = some (likeOf negated c.target v) ∧
      ∀ start calls, v = .text (build start calls).text →
        ((∀ subject, (likeOf negated c.target v).Accepts d.like subject ↔
            (Describes (asked start calls) subject ↔ negated = false)) ↔
          d.like.escape = some '\\' ∨ Unmarked d.like (asked start calls)) := by
  obtain ⟨t, ht, hyields⟩ := exists_test_of_mem_leaves hp hc
  obtain ⟨v, hgives, rfl⟩ := exists_like_of_yields hyields hlike
  obtain ⟨negated, hstands⟩ := test_infix_filter ht
  refine ⟨v, negated, hgives, hstands, read_test_like (known_of_builtin hd) negated _ v, ?_⟩
  rintro start calls rfl
  exact accepts_iff_described.trans (matches_iff_escapes_or_unmarked d _)

/-- A search for names that start with a text. -/
def namesFrom (s : String) : Find :=
  ⟨⟨⟨"shop", "users"⟩, [.condition ⟨.like, ⟨.plain "name", none⟩,
    .literal (.text (startsWith s).text), none⟩]⟩, []⟩

theorem filter_namesFromAnn_likes_described : ∃ (p : Plan) (l : LikePredicate),
    p.IsOf (rules .sqlite "find") (namesFrom "Ann").entries [] ∧ l.pattern = .text "Ann%" ∧
      ∀ subject, l.Accepts Dialect.sqlite.like subject ↔
        (Describes [.exactly "Ann".toList, .any] subject ↔ l.negated = false) := by
  have hd : Dialect.sqlite ∈ Dialect.builtin := by simp [Dialect.builtin]
  have hp : Plan.IsOf (rules .sqlite "find") (namesFrom "Ann").entries [] _ := .inl rfl
  obtain ⟨v, negated, hv, -, -, hagree⟩ :=
    filter_likes_described hd hp (List.mem_singleton_self _) rfl
  obtain rfl : v = .text "Ann%" := hv
  have hunmarked : Unmarked Dialect.sqlite.like (asked (.startsWith "Ann") []) := by
    intro s hs c hc
    obtain rfl : s = "Ann".toList := by simpa [asked, Start.parts] using hs
    have hcs : c = 'A' ∨ c = 'n' := by simpa using hc
    rcases hcs with rfl | rfl
    · decide
    · decide
  exact ⟨_, likeOf negated _ _, hp, rfl, (hagree (.startsWith "Ann") [] rfl).2 (.inr hunmarked)⟩

/-- **A percent sign in a text does not match itself on SQLite.** The pattern is
bound with a backslash before it and read without an escape character, so a
described subject without a backslash is not accepted. -/
theorem find_namesFromHalf_not_described : ∃ q l,
    Sql.render .sqlite (.find (namesFrom "50%")) [] = .ok q ∧
      q.text = "SELECT * FROM \"users\"  WHERE \"name\" LIKE ?" ∧ q.params = [.text "50\\%%"] ∧
      LikePredicate.read Dialect.sqlite.quotes "\"name\" LIKE ?".toList q.params = some l ∧
      Describes (asked (.startsWith "50%") []) "50% off".toList ∧
      ¬ l.Accepts Dialect.sqlite.like "50% off".toList := by
  have hdescribed : Describes (asked (.startsWith "50%") []) "50% off".toList :=
    ⟨["50%".toList, " off".toList], .cons rfl (.cons trivial .nil), rfl⟩
  have hrefused : ¬ Like.Matches ⟨none, false⟩ "50\\%%".toList "50% off".toList := by
    intro h
    have hle := count_le_of_matches rfl (fun hsets => absurd hsets (by decide)) h
    exact absurd hle (by decide)
  refine ⟨_, likeOf false ⟨.plain "name", none⟩ (.text "50\\%%"), rfl, by decide +kernel, rfl, rfl,
    hdescribed, fun haccepts => hrefused (haccepts.2 rfl)⟩

end Sql

end QueryLayer
