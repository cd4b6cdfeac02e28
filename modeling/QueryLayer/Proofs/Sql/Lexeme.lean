import QueryLayer.Sql.Query
import QueryLayer.Dialect.Builtin

/-!
# Lexemes of a text

A text of SQL is read character by character. A quoted name lies between the
quotes of the dialect and a string literal between single quotes; a closing
quote that is written twice belongs to the token, and the first one that is not
ends it. Every other character stands for itself.

Characters may carry a label, which a plain lexeme keeps, so that one can ask
where a character outside of all quotes came from. The main facts say what is
read over a stretch of characters without quotes (`lexemesFrom_inert`) and over
a whole quoted token (`lexemesFrom_wrap`, `lexemesFrom_closed`).
-/

namespace QueryLayer

namespace Sql

/-- The two kinds of quoted tokens. -/
inductive QuoteKind where
  | name
  | literal
deriving DecidableEq, Repr

namespace QuoteKind

/-- The quotes around a token, where names have the quotes `q`. -/
def quotes (q : Text.Quotes) : QuoteKind → Text.Quotes
  | .name => q
  | .literal => .literal

end QuoteKind

/-- A part of a text: a character outside of quotes, or a whole quoted token. -/
inductive Lexeme (β : Type) where
  | plain (c : Char) (label : β)
  | quoted (kind : QuoteKind) (content : List Char)
deriving DecidableEq, Repr

/-- Where reading stands. -/
inductive Mode where
  | outside
  /-- Inside a token whose content so far is known. -/
  | inside (kind : QuoteKind) (content : List Char)
  /-- Behind a closing quote, which the next character may turn out to double. -/
  | closed (kind : QuoteKind) (content : List Char)
deriving DecidableEq, Repr

namespace Mode

/-- The mode after a character that belongs to no token that is open. -/
def enter (q : Text.Quotes) (c : Char) : Mode :=
  if c = q.opening then .inside .name []
  else if c = '\'' then .inside .literal []
  else .outside

/-- The mode after a character. -/
def next (q : Text.Quotes) : Mode → Char → Mode
  | .outside, c => enter q c
  | .inside kind content, c =>
    if c = (kind.quotes q).closing then .closed kind content else .inside kind (content ++ [c])
  | .closed kind content, c =>
    if c = (kind.quotes q).closing then .inside kind (content ++ [c]) else enter q c

/-- The token that a character shows to be complete. -/
def ended {β : Type} (q : Text.Quotes) : Mode → Char → List (Lexeme β)
  | .closed kind content, c =>
    if c = (kind.quotes q).closing then [] else [.quoted kind content]
  | _, _ => []

end Mode

variable {β : Type}

/-- The lexemes of labelled characters, read from a mode; none if a token stays
open at the end. -/
def lexemesFrom (q : Text.Quotes) : Mode → List (Char × β) → Option (List (Lexeme β))
  | .outside, [] => some []
  | .inside _ _, [] => none
  | .closed kind content, [] => some [.quoted kind content]
  | m, (c, b) :: cs =>
    (lexemesFrom q (m.next q c) cs).map fun ls =>
      m.ended q c ++ (if m.next q c = .outside then [.plain c b] else []) ++ ls

/-- The lexemes of labelled characters. -/
def lexemes (q : Text.Quotes) (cs : List (Char × β)) : Option (List (Lexeme β)) :=
  lexemesFrom q .outside cs

/-! ## Quotes that can be read -/

/-- The characters that are quotes in some dialect. -/
def quoteMarks : List Char := ['\'', '"', '\x60', '[', ']']

/-- The quotes are those of some dialect that comes with the library, and not
those of string literals. -/
def Known (q : Text.Quotes) : Prop := q.opening ≠ '\'' ∧ closingOf q.opening = some q.closing

instance (q : Text.Quotes) : Decidable (Known q) := instDecidableAnd

theorem known_of_builtin {d : Dialect} (hd : d ∈ Dialect.builtin) : Known d.quotes := by
  simp only [Dialect.builtin, List.mem_cons, List.not_mem_nil, or_false] at hd
  rcases hd with rfl | rfl | rfl | rfl | rfl | rfl <;> decide

/-- An opening quote and the one that closes it are quote marks. -/
theorem mem_quoteMarks_of_closingOf {c c' : Char} (h : closingOf c = some c') :
    c ∈ quoteMarks ∧ c' ∈ quoteMarks := by
  unfold closingOf at h
  split at h
  all_goals first
    | (cases h; done)
    | (cases h; decide)

namespace Known

variable {q : Text.Quotes} {c : Char}

theorem opening_mem (hq : Known q) : q.opening ∈ quoteMarks :=
  (mem_quoteMarks_of_closingOf hq.2).1

theorem closing_mem (hq : Known q) (k : QuoteKind) : (k.quotes q).closing ∈ quoteMarks := by
  cases k with
  | name => exact (mem_quoteMarks_of_closingOf hq.2).2
  | literal =>
    change '\'' ∈ quoteMarks
    decide

/-- A character that is no quote in any dialect opens nothing. -/
theorem enter_eq_outside (hq : Known q) (hc : c ∉ quoteMarks) : Mode.enter q c = .outside := by
  have hopen : c ≠ q.opening := fun h => hc (h ▸ hq.opening_mem)
  have hsingle : c ≠ '\'' := fun h => hc (h ▸ by decide)
  rw [Mode.enter, if_neg hopen, if_neg hsingle]

/-- And it closes nothing. -/
theorem ne_closing (hq : Known q) (hc : c ∉ quoteMarks) (k : QuoteKind) :
    c ≠ (k.quotes q).closing :=
  fun h => hc (h ▸ hq.closing_mem k)

/-- The opening quote of a token opens it. -/
theorem enter_opening (hq : Known q) (k : QuoteKind) :
    Mode.enter q (k.quotes q).opening = .inside k [] := by
  cases k with
  | name => rw [Mode.enter, QuoteKind.quotes, if_pos rfl]
  | literal =>
    have h : '\'' ≠ q.opening := fun h => hq.1 h.symm
    rw [Mode.enter, QuoteKind.quotes, Text.Quotes.literal, if_neg h, if_pos rfl]

end Known

/-! ## What is read over a stretch -/

section Stretches

variable {q : Text.Quotes} {b : β} {rest : List (Char × β)}

theorem lexemesFrom_cons (m : Mode) (c : Char) :
    lexemesFrom q m ((c, b) :: rest) = (lexemesFrom q (m.next q c) rest).map fun ls =>
      m.ended q c ++ (if m.next q c = .outside then [.plain c b] else []) ++ ls := by
  cases m <;> rw [lexemesFrom]

/-- **Outside of quotes every character that is no quote stands for itself.** -/
theorem lexemesFrom_inert (hq : Known q) {cs : List Char} (hcs : ∀ c ∈ cs, c ∉ quoteMarks) :
    lexemesFrom q .outside (cs.map (·, b) ++ rest) =
      (lexemesFrom q .outside rest).map (cs.map (Lexeme.plain · b) ++ ·) := by
  induction cs with
  | nil => simp
  | cons c cs ih =>
    have hc : Mode.next q .outside c = .outside := hq.enter_eq_outside (hcs c (by simp))
    rw [List.map_cons, List.cons_append, lexemesFrom_cons, hc, if_pos rfl,
      ih fun x hx => hcs x (by simp [hx])]
    cases lexemesFrom q .outside rest <;> simp [Mode.ended]

/-- Inside a token its doubled content is read up to the closing quote. -/
theorem lexemesFrom_double (k : QuoteKind) (before content : List Char) :
    lexemesFrom q (.inside k before)
        (((k.quotes q).double content ++ [(k.quotes q).closing]).map (·, b) ++ rest) =
      lexemesFrom q (.closed k (before ++ content)) rest := by
  induction content generalizing before with
  | nil =>
    have hnext : Mode.next q (.inside k before) (k.quotes q).closing = .closed k before :=
      if_pos rfl
    rw [Text.Quotes.double, List.nil_append, List.map_singleton, List.singleton_append,
      lexemesFrom_cons, hnext]
    simp [Mode.ended]
  | cons c content ih =>
    by_cases hc : c = (k.quotes q).closing
    · -- the first of the two quotes closes the token, the second opens it again
      have hclose : Mode.next q (.inside k before) (k.quotes q).closing = .closed k before :=
        if_pos rfl
      have hagain : Mode.next q (.closed k before) c = .inside k (before ++ [c]) := if_pos hc
      have hended : Mode.ended (β := β) q (.closed k before) c = [] := if_pos hc
      rw [Text.Quotes.double, if_pos hc, List.cons_append, List.cons_append, List.map_cons,
        List.map_cons, List.cons_append, List.cons_append, lexemesFrom_cons, hclose,
        lexemesFrom_cons, hagain, hended, ih]
      simp [Mode.ended]
    · have hnext : Mode.next q (.inside k before) c = .inside k (before ++ [c]) := if_neg hc
      rw [Text.Quotes.double, if_neg hc, List.cons_append, List.map_cons, List.cons_append,
        lexemesFrom_cons, hnext, ih]
      simp [Mode.ended]

/-- **A whole token leaves reading behind its closing quote.** -/
theorem lexemesFrom_wrap (hq : Known q) (k : QuoteKind) (content : List Char) :
    lexemesFrom q .outside (((k.quotes q).wrap content).map (·, b) ++ rest) =
      lexemesFrom q (.closed k content) rest := by
  have hopen : Mode.next q .outside (k.quotes q).opening = .inside k [] := hq.enter_opening k
  rw [Text.Quotes.wrap, List.map_cons, List.cons_append, lexemesFrom_cons, hopen,
    lexemesFrom_double k [] content]
  simp [Mode.ended]

/-- The token is complete if no quote follows. -/
theorem lexemesFrom_closed (hq : Known q) (k : QuoteKind) (content : List Char)
    (hrest : ∀ p ∈ rest.head?, p.1 ∉ quoteMarks) :
    lexemesFrom q (.closed k content) rest =
      (lexemesFrom q .outside rest).map (.quoted k content :: ·) := by
  cases rest with
  | nil => rfl
  | cons p rest =>
    obtain ⟨c, b⟩ := p
    have hc : c ∉ quoteMarks := hrest (c, b) (by simp)
    have hnext : Mode.next q (.closed k content) c = Mode.next q .outside c :=
      if_neg (hq.ne_closing hc k)
    have hended : Mode.ended (β := β) q (.closed k content) c = [.quoted k content] :=
      if_neg (hq.ne_closing hc k)
    rw [lexemesFrom_cons, lexemesFrom_cons, hnext, hended]
    cases lexemesFrom q (Mode.next q .outside c) rest <;> simp [Mode.ended]

end Stretches

end Sql

end QueryLayer
