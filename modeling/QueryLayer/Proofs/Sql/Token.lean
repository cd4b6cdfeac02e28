import QueryLayer.Proofs.Sql.Legible

/-!
# Tokens of a text

The characters outside of quotes make words and marks: a word is as long as it
can be, a blank only ends words, and every other character is a mark. A text
comes with its bound values, and each placeholder is replaced by the value
bound to it.

For a legible fragment the tokens are those of its pieces, one piece after the
other (`readTokens_write`).
-/

namespace QueryLayer

namespace Sql

/-- A token of a text whose placeholders are filled. -/
inductive Token where
  | word (w : String)
  | mark (c : Char)
  | name (n : String)
  | literal (content : List Char)
  /-- A placeholder and the value bound to it. -/
  | value (v : Value)

variable {β : Type}

namespace Token

/-- The word that some characters make; none without characters. -/
def ofWord (w : List Char) : List Token := if w = [] then [] else [.word (String.ofList w)]

/-- The token of a character that belongs to no word. -/
def ofMark (c : Char) : List Token := if c = ' ' then [] else [.mark c]

/-- The token is the mark in the place of a bound value. -/
def isPlaceholder : Token → Bool
  | .mark c => c == '?'
  | _ => false

/-- The token of a quoted text. -/
def ofQuoted (k : QuoteKind) (content : List Char) : Token :=
  match k with
  | .name => .name (String.ofList content)
  | .literal => .literal content

end Token

/-- The tokens of lexemes, where the word so far is `w`. Placeholders are still
marks. -/
def tokensFrom (w : List Char) : List (Lexeme β) → List Token
  | [] => Token.ofWord w
  | .plain c _ :: ls =>
    if isWordChar c then tokensFrom (w ++ [c]) ls
    else Token.ofWord w ++ Token.ofMark c ++ tokensFrom [] ls
  | .quoted k content :: ls => Token.ofWord w ++ Token.ofQuoted k content :: tokensFrom [] ls

/-- Puts a value in the place of each placeholder. There must be as many of the
one as of the other. -/
def bindTokens : List Token → List Value → Option (List Token)
  | [], vs => if vs.isEmpty then some [] else none
  | t :: ts, vs =>
    if t.isPlaceholder then
      match vs with
      | [] => none
      | v :: vs => (bindTokens ts vs).map (.value v :: ·)
    else (bindTokens ts vs).map (t :: ·)

/-- The tokens of a text and its bound values. -/
def readTokens (q : Text.Quotes) (text : List Char) (params : List Value) : Option (List Token) :=
  (lexemes q (text.map (·, ()))).bind fun ls => bindTokens (tokensFrom [] ls) params

/-! ## Where words end -/

namespace Lexeme

/-- The lexeme belongs to a word. -/
def isWord : Lexeme β → Bool
  | .plain c _ => isWordChar c
  | .quoted _ _ => false

end Lexeme

/-- A lexeme that belongs to no word ends the word before it. -/
theorem tokensFrom_of_head (w : List Char) {ls : List (Lexeme β)}
    (h : ∀ l ∈ ls.head?, l.isWord = false) :
    tokensFrom w ls = Token.ofWord w ++ tokensFrom [] ls := by
  cases ls with
  | nil => simp [tokensFrom, Token.ofWord]
  | cons l ls =>
    have hl : l.isWord = false := h l (by simp)
    cases l with
    | plain c b =>
      have hc : isWordChar c = false := hl
      simp [tokensFrom, hc, Token.ofWord]
    | quoted k content => simp [tokensFrom, Token.ofWord]

/-- Lexemes may be read apart where no word begins. -/
theorem tokensFrom_append_of_head (w : List Char) (ls : List (Lexeme β)) {ls' : List (Lexeme β)}
    (h : ∀ l ∈ ls'.head?, l.isWord = false) :
    tokensFrom w (ls ++ ls') = tokensFrom w ls ++ tokensFrom [] ls' := by
  induction ls generalizing w with
  | nil => rw [List.nil_append, tokensFrom_of_head w h, tokensFrom]
  | cons l ls ih =>
    cases l with
    | plain c b =>
      by_cases hc : isWordChar c
      · simp only [List.cons_append, tokensFrom, if_pos hc, ih]
      · simp only [List.cons_append, tokensFrom, if_neg hc, ih, List.append_assoc]
    | quoted k content => simp [tokensFrom, ih]

/-- And where no word goes on. -/
theorem tokensFrom_append_of_last (w : List Char) (ls : List (Lexeme β)) {l : Lexeme β}
    (hl : l.isWord = false) (ls' : List (Lexeme β)) :
    tokensFrom w (ls ++ l :: ls') = tokensFrom w (ls ++ [l]) ++ tokensFrom [] ls' := by
  induction ls generalizing w with
  | nil =>
    cases l with
    | plain c b =>
      have hc : isWordChar c = false := hl
      simp [tokensFrom, hc, Token.ofWord]
    | quoted k content => simp [tokensFrom, Token.ofWord]
  | cons l' ls ih =>
    cases l' with
    | plain c b =>
      by_cases hc : isWordChar c
      · simp only [List.cons_append, tokensFrom, if_pos hc, ih]
      · simp only [List.cons_append, tokensFrom, if_neg hc, ih, List.append_assoc]
    | quoted k content => simp only [List.cons_append, tokensFrom, ih, List.append_assoc]

/-- A mark among the tokens is a character of the text. -/
theorem mem_of_mark_mem_tokensFrom {c : Char} {w : List Char} {ls : List (Lexeme β)}
    (h : .mark c ∈ tokensFrom w ls) : ∃ b, .plain c b ∈ ls := by
  induction ls generalizing w with
  | nil =>
    rw [tokensFrom, Token.ofWord] at h
    split at h <;> simp at h
  | cons l ls ih =>
    have hword : Token.mark c ∉ Token.ofWord w := by
      unfold Token.ofWord
      split <;> simp
    cases l with
    | plain c' b =>
      rw [tokensFrom] at h
      split at h
      · obtain ⟨b', hb'⟩ := ih h
        exact ⟨b', by simp [hb']⟩
      · -- the character ends the word before it, and is a mark unless it is blank
        rcases List.mem_append.1 h with h | h
        · have hmark : Token.mark c ∈ Token.ofMark c' := by simpa [hword] using h
          unfold Token.ofMark at hmark
          split at hmark
          · simp at hmark
          · obtain rfl : c = c' := by simpa using hmark
            exact ⟨b, by simp⟩
        · obtain ⟨b', hb'⟩ := ih h
          exact ⟨b', by simp [hb']⟩
    | quoted k content =>
      rw [tokensFrom] at h
      rcases List.mem_append.1 h with h | h
      · exact absurd h hword
      · rcases List.mem_cons.1 h with h | h
        · cases k <;> simp [Token.ofQuoted] at h
        · obtain ⟨b', hb'⟩ := ih h
          exact ⟨b', by simp [hb']⟩

/-! ## The tokens of a fragment -/

namespace Piece

/-- A placeholder is no part of a word. -/
theorem isWord_placeholder : (Lexeme.plain '?' ()).isWord = false := by decide

/-- The tokens of a piece. -/
def tokens : Piece → List Token
  | .slot _ v => [.value v]
  | p => tokensFrom [] (p.lexemes fun _ => ())

/-- The tokens of a piece whose placeholder is not filled. -/
def bareTokens (p : Piece) : List Token := tokensFrom [] (p.lexemes fun _ => ())

/-- A piece that can be read has a last lexeme, which shows its right edge. -/
theorem exists_last_lexeme {p : Piece} (hp : p.Clean) (hedge : p.rightEdge ≠ .word) :
    ∃ ls l, p.lexemes (fun _ => ()) = ls ++ [l] ∧ l.isWord = false := by
  cases p with
  | text s =>
    have hne : s.toList ≠ [] := by simpa using hp.1
    obtain ⟨cs, c, hcs⟩ := List.eq_nil_or_concat' s.toList |>.resolve_left hne
    refine ⟨cs.map (.plain · ()), .plain c (), by simp [lexemes, hcs], ?_⟩
    have hc : edgeOf c ≠ .word := by simpa [rightEdge, hcs] using hedge
    unfold edgeOf at hc
    simpa [Lexeme.isWord] using hc
  | name n => exact ⟨[], _, rfl, rfl⟩
  | literal content => exact ⟨[], _, rfl, rfl⟩
  | slot s v => exact ⟨[], _, rfl, isWord_placeholder⟩

/-- And a first lexeme, which shows its left edge. -/
theorem isWord_first_lexeme {p : Piece} (hp : p.Clean) (hedge : p.leftEdge ≠ .word)
    (rest : List (Lexeme Unit)) :
    ∀ l ∈ (p.lexemes (fun _ => ()) ++ rest).head?, l.isWord = false := by
  cases p with
  | text s =>
    have hne : s.toList ≠ [] := by simpa using hp.1
    cases hcs : s.toList with
    | nil => exact absurd hcs hne
    | cons c cs =>
      have hc : edgeOf c ≠ .word := by simpa [leftEdge, hcs] using hedge
      unfold edgeOf at hc
      simpa [lexemes, hcs, Lexeme.isWord] using hc
  | name n => simp [lexemes, Lexeme.isWord]
  | literal content => simp [lexemes, Lexeme.isWord]
  | slot s v =>
    intro l hl
    obtain rfl : .plain '?' () = l := by simpa [lexemes] using hl
    exact isWord_placeholder

end Piece

namespace Fragment

variable {f : Fragment}

/-- The tokens of a fragment. -/
def tokens (f : Fragment) : List Token := f.flatMap Piece.tokens

theorem piecewise_tokens : Piecewise tokens := piecewise_flatMap Piece.tokens

@[simp] theorem tokens_append (f g : Fragment) : tokens (f ++ g) = tokens f ++ tokens g :=
  piecewise_tokens.append f g

@[simp] theorem tokens_cons (p : Piece) (f : Fragment) :
    tokens (p :: f) = p.tokens ++ tokens f := by
  simp [tokens]

@[simp] theorem tokens_nil : tokens [] = [] := rfl

/-- The pieces of a legible fragment are read one by one. -/
theorem tokensFrom_lexemes (hf : Legible f) :
    tokensFrom [] (f.flatMap (Piece.lexemes fun _ => ())) = f.flatMap Piece.bareTokens := by
  obtain ⟨hclean, hchain⟩ := hf
  induction f with
  | nil => rfl
  | cons p f ih =>
    rw [List.isChain_cons] at hchain
    have ih := ih (fun p' hp' => hclean p' (by simp [hp'])) hchain.2
    rw [List.flatMap_cons, List.flatMap_cons, ← ih]
    by_cases hedge : p.rightEdge = .word
    · -- a word ends here because none begins behind it
      refine tokensFrom_append_of_head [] _ ?_
      cases f with
      | nil => simp
      | cons p' f =>
        have hapart : p.Apart p' := hchain.1 p' (by simp)
        have hleft : p'.leftEdge ≠ .word := hapart.leftEdge_ne hedge (by decide)
        rw [List.flatMap_cons]
        exact Piece.isWord_first_lexeme (hclean p' (by simp)) hleft _
    · obtain ⟨ls, l, hls, hl⟩ := Piece.exists_last_lexeme (hclean p (by simp)) hedge
      rw [Piece.bareTokens, hls, List.append_assoc]
      exact tokensFrom_append_of_last [] ls hl _

/-- Tokens without placeholders take no values. -/
theorem bindTokens_append {ts us : List Token} (hts : ∀ t ∈ ts, t.isPlaceholder = false)
    (vs : List Value) : bindTokens (ts ++ us) vs = (bindTokens us vs).map (ts ++ ·) := by
  induction ts with
  | nil => simp
  | cons t ts ih =>
    have hcons : bindTokens (t :: (ts ++ us)) vs = (bindTokens (ts ++ us) vs).map (t :: ·) := by
      cases vs <;> simp [bindTokens, hts t (by simp)]
    rw [List.cons_append, hcons, ih fun u hu => hts u (by simp [hu])]
    cases bindTokens us vs <;> rfl

/-- A clean text holds no placeholder. -/
theorem isPlaceholder_of_mem_bareTokens {p : Piece} (hp : p.Clean) (hslot : p.bound = none)
    {t : Token} (ht : t ∈ p.bareTokens) : t.isPlaceholder = false := by
  cases p with
  | text s =>
    cases t with
    | mark c =>
      obtain ⟨b, hb⟩ := mem_of_mark_mem_tokensFrom ht
      obtain ⟨c', hc', hcb⟩ := List.mem_map.1 hb
      cases hcb
      simpa [Token.isPlaceholder] using (hp.2 c hc').2
    | word w | name n | literal content | value v => rfl
  | name n =>
    obtain rfl : t = .name (String.ofList n.toList) := List.mem_singleton.1 ht
    rfl
  | literal content =>
    obtain rfl : t = .literal content := List.mem_singleton.1 ht
    rfl
  | slot s v => simp [Piece.bound] at hslot

/-- The values bound by a fragment fill its placeholders. -/
theorem bindTokens_bound (hclean : ∀ p ∈ f, p.Clean) :
    bindTokens (f.flatMap Piece.bareTokens) (bound f) = some (tokens f) := by
  induction f with
  | nil => rfl
  | cons p f ih =>
    have ih := ih fun p' hp' => hclean p' (by simp [hp'])
    have hp := hclean p (by simp)
    rw [List.flatMap_cons, tokens_cons]
    cases p with
    | slot s v =>
      change bindTokens (.mark '?' :: f.flatMap Piece.bareTokens) (v :: bound f) = _
      rw [bindTokens, if_pos (by rfl), ih]
      rfl
    | text s | name n | literal content =>
      rw [bindTokens_append fun t ht => isPlaceholder_of_mem_bareTokens hp rfl ht]
      change (bindTokens (f.flatMap Piece.bareTokens) (bound f)).map _ = _
      rw [ih]
      rfl

/-- **The tokens of the text of a legible fragment, its bound values in place,
are the tokens of its pieces.** -/
theorem readTokens_write {q : Text.Quotes} (hq : Known q) (hf : Legible f) :
    readTokens q (write q f) (bound f) = some (tokens f) := by
  rw [readTokens, map_write_eq_labelled, lexemes_labelled hq hf, Option.bind_some, tokensFrom_lexemes hf,
    bindTokens_bound hf.1]

end Fragment

end Sql

end QueryLayer
