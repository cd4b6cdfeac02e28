import QueryLayer.Proofs.Pattern.Described

/-!
# LIKE patterns

How SQL reads the text of a LIKE pattern: `%` stands for any text, `_` for any
one character, and most other characters for themselves. Engines do not agree on
the rest (`Like.Rules`): there may be an escape character, and brackets may hold
a set of characters, of which the subject must have one. Collations, which may
take letters of either case for the same, play no part here.

Where the backslash escapes, the text of a pattern matches what the pattern
describes (`matches_like`).
-/

namespace QueryLayer

namespace Like

/-- What engines do not agree on. -/
structure Rules where
  /-- The character that makes the one behind it stand for itself. -/
  escape : Option Char
  /-- Brackets stand around a set of characters. -/
  sets : Bool
deriving DecidableEq, Repr

/-- The backslash escapes, and brackets stand for themselves. -/
def Rules.standard : Rules := ⟨some '\\', false⟩

/-- What a stretch of a pattern stands for. -/
inductive Token where
  | any
  | one
  | literal (c : Char)
  /-- One of the characters that brackets with this content allow. -/
  | set (content : List Char)
  /-- The pattern breaks off, so nothing matches it. -/
  | broken
deriving DecidableEq, Repr

/-- Where in a pattern the reading is. -/
inductive State where
  | plain
  /-- Behind the escape character. -/
  | escaped
  /-- In brackets, behind this content. -/
  | inSet (content : List Char)

/-- The tokens of the rest of a pattern. -/
def tokensFrom (r : Rules) : State → List Char → List Token
  | .plain, [] => []
  | .escaped, [] => [.broken]
  | .inSet _, [] => [.broken]
  | .plain, c :: cs =>
    if r.escape = some c then tokensFrom r .escaped cs
    else if c = '%' then .any :: tokensFrom r .plain cs
    else if c = '_' then .one :: tokensFrom r .plain cs
    else if r.sets = true ∧ c = '[' then tokensFrom r (.inSet []) cs
    else .literal c :: tokensFrom r .plain cs
  | .escaped, c :: cs => .literal c :: tokensFrom r .plain cs
  | .inSet content, c :: cs =>
    if c = ']' then .set content :: tokensFrom r .plain cs
    else tokensFrom r (.inSet (content ++ [c])) cs

/-- The tokens of a pattern. -/
def tokens (r : Rules) (pattern : List Char) : List Token := tokensFrom r .plain pattern

/-! ## Sets of characters -/

/-- The ranges that some content lists, each from its first to its last
character. A character alone is a range too. -/
def ranges : List Char → List (Char × Char)
  | first :: '-' :: last :: rest => (first, last) :: ranges rest
  | c :: rest => (c, c) :: ranges rest
  | [] => []

/-- The character lies in one of the ranges. -/
def Listed (content : List Char) (c : Char) : Prop := ∃ r ∈ ranges content, r.1 ≤ c ∧ c ≤ r.2

/-- Brackets with this content allow the character. A circumflex in front turns
the set around. -/
def Allows (content : List Char) (c : Char) : Prop :=
  match content with
  | '^' :: rest => ¬ Listed rest c
  | content => Listed content c

/-- The stretches of a subject that a token stands for. -/
def Token.Takes : Token → List Char → Prop
  | .any, _ => True
  | .one, stretch => ∃ c, stretch = [c]
  | .literal c, stretch => stretch = [c]
  | .set content, stretch => ∃ c, stretch = [c] ∧ Allows content c
  | .broken, _ => False

/-- The subject is matched by the pattern from its start to its end. -/
def Matches (r : Rules) (pattern subject : List Char) : Prop :=
  Concatenates Token.Takes (tokens r pattern) subject

end Like

/-! ## The text of a pattern -/

namespace Pattern

open Like

section Text

variable {r : Rules} {parts : List Part} {part : Part} {s rest subject : List Char}

/-- The tokens that stand for a part. -/
def Part.tokens : Part → List Token
  | .exactly s => s.map .literal
  | .any => [.any]
  | .one => [.one]

theorem concatenates_tokens (part : Part) (text : List Char) :
    Concatenates Token.Takes part.tokens text ↔ part.Takes text := by
  cases part with
  | exactly s =>
    have hliterals : Concatenates Token.Takes (s.map .literal) text ↔
        Concatenates (fun c stretch => stretch = [c]) s text :=
      concatenates_map fun _ _ => Iff.rfl
    exact hliterals.trans concatenates_literals
  | any | one => simp [Part.tokens, Part.Takes, Token.Takes, concatenates_cons, concatenates_nil]

/-- The engine reads the text of the part as the part. -/
def ReadsBack (r : Rules) (part : Part) : Prop :=
  ∀ rest, tokensFrom r .plain (part.like ++ rest) = part.tokens ++ tokensFrom r .plain rest

/-- Where each part is read back, so is the pattern. -/
theorem tokens_like (h : ∀ part ∈ parts, ReadsBack r part) :
    tokens r (parts.flatMap Part.like) = parts.flatMap Part.tokens := by
  induction parts with
  | nil => rfl
  | cons part parts ih =>
    obtain ⟨hpart, hparts⟩ := List.forall_mem_cons.1 h
    have htail : tokensFrom r .plain (parts.flatMap Part.like) = parts.flatMap Part.tokens :=
      ih hparts
    rw [List.flatMap_cons, List.flatMap_cons, tokens, hpart, htail]

theorem matches_like_of_readsBack (h : ∀ part ∈ parts, ReadsBack r part) :
    Matches r (parts.flatMap Part.like) subject ↔ Describes parts subject := by
  rw [Matches, tokens_like h, Describes]
  exact concatenates_flatMap concatenates_tokens

/-- The characters of a text that are written with a backslash. -/
def written (c : Char) : Bool := c = '%' || c = '_' || c = '\\'

theorem written_iff {c : Char} : written c = true ↔ c = '%' ∨ c = '_' ∨ c = '\\' := by
  simp [written, or_assoc]

theorem escape_cons (c : Char) (s : List Char) :
    escape (c :: s) = (if written c then ['\\', c] else [c]) ++ escape s := by
  simp only [escape, List.flatMap_cons, written_iff]

/-! ## With the backslash as escape character -/

/-- A character that is not written with a backslash stands for itself. -/
theorem tokensFrom_standard_cons {c : Char} (hc : ¬ written c = true) (rest : List Char) :
    tokensFrom .standard .plain (c :: rest) = .literal c :: tokensFrom .standard .plain rest := by
  have hplain : c ≠ '%' ∧ c ≠ '_' ∧ c ≠ '\\' := by simpa [written_iff] using hc
  obtain ⟨hany, hone, hbackslash⟩ := hplain
  have hescape : Rules.standard.escape ≠ some c := fun h => hbackslash (Option.some.inj h).symm
  have hset : ¬ (Rules.standard.sets = true ∧ c = '[') := fun h => absurd h.1 (by decide)
  rw [tokensFrom, if_neg hescape, if_neg hany, if_neg hone, if_neg hset]

theorem tokensFrom_escape (s rest : List Char) :
    tokensFrom .standard .plain (escape s ++ rest) =
      s.map .literal ++ tokensFrom .standard .plain rest := by
  induction s with
  | nil => rfl
  | cons c s ih =>
    rw [escape_cons, List.append_assoc, List.map_cons, List.cons_append]
    by_cases hwritten : written c = true
    · rw [if_pos hwritten, List.cons_append, List.cons_append, List.nil_append]
      simp only [tokensFrom, Rules.standard, if_true]
      rw [← Rules.standard, ih]
    · rw [if_neg hwritten, List.singleton_append, tokensFrom_standard_cons hwritten, ih]

theorem readsBack_standard (part : Part) : ReadsBack .standard part := by
  intro rest
  cases part with
  | exactly s => exact tokensFrom_escape s rest
  | any | one => rfl

/-- **Where the backslash escapes, the text of a pattern matches what the
pattern describes.** -/
theorem matches_like :
    Matches .standard (parts.flatMap Part.like) subject ↔ Describes parts subject :=
  matches_like_of_readsBack fun part _ => readsBack_standard part

end Text

end Pattern

end QueryLayer
