import QueryLayer.Proofs.Sql.Lexeme
import QueryLayer.Proofs.Sql.Piecewise
import Mathlib.Data.List.Chain

/-!
# Legible fragments

A fragment is legible if its pieces can be told apart in its text: its words
and marks hold no quotes and no placeholder, no two quoted tokens touch, and no
two words run together. What is read from the text of a legible fragment is
exactly what its pieces are (`lexemes_labelled`).

Fragments are built from left to right, so legibility is shown by looking at
edges: where one of two fragments is open at the edge they share, putting them
together keeps them legible. Most are open at their start (`Attachable`).
-/

namespace QueryLayer

namespace Sql

/-- A character that words are made of. -/
def isWordChar (c : Char) : Bool := c.isAlphanum || c == '_'

/-- What a piece shows at one of its ends. -/
inductive Edge where
  | quote
  | word
  /-- A blank or a mark, beside which anything may stand. -/
  | clear
deriving DecidableEq, Repr

/-- What a character shows at the end of a text. -/
def edgeOf (c : Char) : Edge := if isWordChar c then .word else .clear

namespace Piece

/-- What the piece begins with. -/
def leftEdge : Piece → Edge
  | .text s => (s.toList.head?.map edgeOf).getD .clear
  | .name _ | .literal _ => .quote
  | .slot _ _ => .clear

/-- What the piece ends with. -/
def rightEdge : Piece → Edge
  | .text s => (s.toList.getLast?.map edgeOf).getD .clear
  | .name _ | .literal _ => .quote
  | .slot _ _ => .clear

/-- A text is not empty and holds neither a quote nor a placeholder. -/
def Clean : Piece → Prop
  | .text s => s ≠ "" ∧ ∀ c ∈ s.toList, c ∉ quoteMarks ∧ c ≠ '?'
  | _ => True

instance : DecidablePred Clean
  | .text _ => @instDecidableAnd _ _ inferInstance (List.decidableBAll _ _)
  | .name _ | .literal _ | .slot _ _ => .isTrue trivial

/-- The first piece does not run into the second. -/
def Apart (p p' : Piece) : Prop := p.rightEdge = .clear ∨ p.rightEdge ≠ p'.leftEdge

/-- Behind a quote comes no quote, and behind a word no word. -/
theorem Apart.leftEdge_ne {p p' : Piece} {e : Edge} (h : p.Apart p') (hp : p.rightEdge = e)
    (he : e ≠ .clear) : p'.leftEdge ≠ e := by
  subst hp
  rcases h with h | h
  · exact absurd h he
  · exact h.symm

/-- The label a piece gives to each of its characters. -/
def labelled {β : Type} (label : Piece → β) (q : Text.Quotes) (p : Piece) : List (Char × β) :=
  (p.write q).map (·, label p)

/-- What a piece should be read as. -/
def lexemes {β : Type} (label : Piece → β) (p : Piece) : List (Lexeme β) :=
  match p with
  | .text s => s.toList.map (.plain · (label p))
  | .name n => [.quoted .name n.toList]
  | .literal content => [.quoted .literal content]
  | .slot _ _ => [.plain '?' (label p)]

end Piece

namespace Fragment

variable {f g : Fragment} {s mark : String}

/-- The text of a fragment, each character with the label of its piece. -/
def labelled {β : Type} (label : Piece → β) (q : Text.Quotes) (f : Fragment) : List (Char × β) :=
  f.flatMap (Piece.labelled label q)

/-- Labels leave the text as it is. -/
theorem map_fst_labelled {β : Type} (label : Piece → β) (q : Text.Quotes) (f : Fragment) :
    (labelled label q f).map Prod.fst = f.write q := by
  induction f with
  | nil => rfl
  | cons p f ih =>
    have hp : (p.labelled label q).map Prod.fst = p.write q := by
      simp [Piece.labelled, Function.comp_def]
    rw [labelled, List.flatMap_cons, List.map_append, hp, write, List.flatMap_cons]
    exact congrArg _ ih

/-- The text without labels, which are all the same. -/
theorem map_write_eq_labelled (q : Text.Quotes) (f : Fragment) :
    (write q f).map (·, ()) = labelled (fun _ => ()) q f := by
  rw [← map_fst_labelled (fun _ => ()) q f, List.map_map]
  exact List.map_id _

/-- The pieces of the fragment can be told apart in its text. -/
def Legible (f : Fragment) : Prop := (∀ p ∈ f, p.Clean) ∧ f.IsChain Piece.Apart

/-- Nothing before the fragment can run into it. -/
def Leading (f : Fragment) : Prop := ∀ p ∈ f.head?, p.leftEdge = .clear

/-- The fragment runs into nothing behind it. -/
def Trailing (f : Fragment) : Prop := ∀ p ∈ f.getLast?, p.rightEdge = .clear

/-! ## Reading a legible fragment -/

/-- A piece that is not quoted begins with no quote. -/
theorem head?_labelled_of_clean {β : Type} {label : Piece → β} {q : Text.Quotes} {p : Piece}
    (hp : p.Clean) (hedge : p.leftEdge ≠ .quote) (rest : List (Char × β)) :
    ∀ x ∈ (p.labelled label q ++ rest).head?, x.1 ∉ quoteMarks := by
  cases p with
  | text s =>
    intro x hx
    obtain ⟨hne, hs⟩ := hp
    have hne' : s.toList ≠ [] := by simpa using hne
    cases hcs : s.toList with
    | nil => exact absurd hcs hne'
    | cons c cs =>
      rw [Piece.labelled, Piece.write, hcs] at hx
      obtain rfl : (c, label (.text s)) = x := by simpa using hx
      exact (hs c (by simp [hcs])).1
  | name n => exact absurd rfl hedge
  | literal content => exact absurd rfl hedge
  | slot s v =>
    intro x hx
    obtain rfl : ('?', label (.slot s v)) = x := by simpa [Piece.labelled, Piece.write] using hx
    change '?' ∉ quoteMarks
    decide

/-- **The text of a legible fragment reads as its pieces.** -/
theorem lexemes_labelled {β : Type} {label : Piece → β} {q : Text.Quotes} (hq : Known q)
    (hf : Legible f) : lexemes q (labelled label q f) = some (f.flatMap (Piece.lexemes label)) := by
  obtain ⟨hclean, hchain⟩ := hf
  unfold Sql.lexemes
  induction f with
  | nil => rfl
  | cons p f ih =>
    rw [List.isChain_cons] at hchain
    have ih := ih (fun p' hp' => hclean p' (by simp [hp'])) hchain.2
    -- behind a quoted token comes no other one, so the token is complete
    have hend : ∀ (k : QuoteKind) (content : List Char), p.rightEdge = .quote →
        lexemesFrom q (.closed k content) (labelled label q f) =
          (lexemesFrom q .outside (labelled label q f)).map (.quoted k content :: ·) := by
      intro k content hquote
      refine lexemesFrom_closed hq k content ?_
      cases f with
      | nil => simp [labelled]
      | cons p' f =>
        have hapart : p.Apart p' := hchain.1 p' (by simp)
        have hedge : p'.leftEdge ≠ .quote := hapart.leftEdge_ne hquote (by decide)
        rw [labelled, List.flatMap_cons]
        exact head?_labelled_of_clean (hclean p' (by simp)) hedge _
    rw [labelled, List.flatMap_cons, List.flatMap_cons]
    change lexemesFrom q .outside (p.labelled label q ++ labelled label q f) = _
    cases p with
    | text s =>
      have hs := (hclean (.text s) (by simp)).2
      rw [Piece.labelled, Piece.write, lexemesFrom_inert hq fun c hc => (hs c hc).1, ih]
      rfl
    | name n =>
      rw [Piece.labelled, Piece.write]
      change lexemesFrom q .outside
        (((QuoteKind.name.quotes q).wrap n.toList).map (·, label (.name n)) ++ _) = _
      rw [lexemesFrom_wrap hq, hend .name n.toList rfl, ih]
      rfl
    | literal content =>
      rw [Piece.labelled, Piece.write]
      change lexemesFrom q .outside
        (((QuoteKind.literal.quotes q).wrap content).map (·, label (.literal content)) ++ _) = _
      rw [lexemesFrom_wrap hq, hend .literal content rfl, ih]
      rfl
    | slot s v =>
      have hmark : ∀ c ∈ ['?'], c ∉ quoteMarks := by simp [quoteMarks]
      rw [Piece.labelled, Piece.write, lexemesFrom_inert hq hmark, ih]
      rfl

/-! ## Edges -/

theorem leading_nil : Leading [] := by simp [Leading]

theorem trailing_nil : Trailing [] := by simp [Trailing]

@[simp] theorem leading_cons {p : Piece} : Leading (p :: f) ↔ p.leftEdge = .clear := by
  simp [Leading]

@[simp] theorem trailing_concat {p : Piece} : Trailing (f ++ [p]) ↔ p.rightEdge = .clear := by
  simp [Trailing]

theorem Leading.append (hf : Leading f) (hg : Leading g) : Leading (f ++ g) := by
  cases f with
  | nil => exact hg
  | cons p f => exact hf

theorem Trailing.append (hf : Trailing f) (hg : Trailing g) : Trailing (f ++ g) := by
  rcases List.eq_nil_or_concat' g with rfl | ⟨g', p, rfl⟩
  · simpa using hf
  · rw [← List.append_assoc]
    exact trailing_concat.2 (trailing_concat.1 hg)

theorem trailing_append_of_ne_nil (hg : g ≠ []) : Trailing (f ++ g) ↔ Trailing g := by
  simp [Trailing, hg]

/-! ## Putting fragments together -/

theorem legible_nil : Legible [] := ⟨by simp, .nil⟩

theorem legible_singleton {p : Piece} (hp : p.Clean) : Legible [p] :=
  ⟨by simpa using hp, .singleton p⟩

theorem legible_name (n : String) : Legible [.name n] := legible_singleton trivial

theorem legible_slot (slot : Slot) (v : Value) : Legible [.slot slot v] := legible_singleton trivial

/-- **Fragments stay legible together** if one is open where they meet. -/
theorem Legible.append (hf : Legible f) (hg : Legible g) (h : Trailing f ∨ Leading g) :
    Legible (f ++ g) := by
  refine ⟨?_, List.IsChain.append hf.2 hg.2 ?_⟩
  · intro p hp
    rcases List.mem_append.1 hp with hp | hp
    · exact hf.1 p hp
    · exact hg.1 p hp
  · intro p hp p' hp'
    rcases h with h | h
    · exact .inl (h p hp)
    · refine (em (p.rightEdge = .clear)).imp id fun hne => ?_
      rw [h p' hp']
      exact hne

/-- A text that is open at its end may stand before anything. -/
theorem Legible.text_cons (hf : Legible f) (hs : (Piece.text s).Clean)
    (hr : (Piece.text s).rightEdge = .clear) : Legible (.text s :: f) :=
  (legible_singleton hs).append hf (.inl (by simpa [Trailing] using hr))

/-- A slot may stand before anything. -/
theorem Legible.slot_cons (hf : Legible f) (slot : Slot) (v : Value) :
    Legible (.slot slot v :: f) :=
  (legible_slot slot v).append hf (.inl (by simp [Trailing, Piece.rightEdge]))

/-- Anything may stand before a fragment that is open at its start. -/
theorem Legible.name_cons (hf : Legible f) (hl : Leading f) (n : String) :
    Legible (.name n :: f) :=
  (legible_name n).append hf (.inr hl)

/-- Marks that are open at both ends keep fragments apart. -/
structure Mark (s : String) : Prop where
  clean : (Piece.text s).Clean
  left : (Piece.text s).leftEdge = .clear
  right : (Piece.text s).rightEdge = .clear

instance (s : String) : Decidable (Mark s) :=
  decidable_of_iff
    ((Piece.text s).Clean ∧ (Piece.text s).leftEdge = .clear ∧ (Piece.text s).rightEdge = .clear)
    ⟨fun h => ⟨h.1, h.2.1, h.2.2⟩, fun h => ⟨h.clean, h.left, h.right⟩⟩

/-- A mark and what follows it. -/
theorem Mark.cons (hs : Mark s) (hf : Legible f) : Legible (.text s :: f) :=
  hf.text_cons hs.clean hs.right


/-- Each of the fragments stands among them. -/
theorem infix_join {fs : List Fragment} (hg : g ∈ fs) : g <:+: join mark fs := by
  induction fs with
  | nil => exact absurd hg List.not_mem_nil
  | cons f fs ih =>
    cases fs with
    | nil =>
      have hjoin : g = join mark [f] := (List.mem_singleton.1 hg).trans join_singleton.symm
      exact hjoin ▸ List.infix_rfl
    | cons f' fs =>
      rw [join_cons_cons]
      rcases List.mem_cons.1 hg with rfl | hg
      · exact (List.prefix_append _ _).isInfix
      · have hrest := (List.suffix_cons (.text mark) (join mark (f' :: fs))).trans
          (List.suffix_append f _)
        exact (ih hg).trans hrest.isInfix

/-- A fragment that may stand behind any other one. -/
structure Attachable (f : Fragment) : Prop where
  legible : Legible f
  leading : Leading f

theorem attachable_nil : Attachable [] := ⟨legible_nil, leading_nil⟩

theorem attachable_text (hs : (Piece.text s).Clean ∧ (Piece.text s).leftEdge = .clear) :
    Attachable [.text s] :=
  ⟨legible_singleton hs.1, leading_cons.2 hs.2⟩

theorem Mark.attachable (hs : Mark s) (hf : Legible f) : Attachable (.text s :: f) :=
  ⟨hs.cons hf, leading_cons.2 hs.left⟩

theorem Legible.attach (hf : Legible f) (hg : Attachable g) : Legible (f ++ g) :=
  hf.append hg.legible (.inr hg.leading)

/-- Two fragments with a mark between them. -/
theorem Mark.between (hs : Mark s) (hf : Legible f) (hg : Legible g) :
    Legible (f ++ .text s :: g) :=
  hf.attach (hs.attachable hg)

theorem Attachable.append (hf : Attachable f) (hg : Attachable g) : Attachable (f ++ g) :=
  ⟨hf.legible.attach hg, hf.leading.append hg.leading⟩

theorem attachable_flatten : ∀ {fs : List Fragment}, (∀ f ∈ fs, Attachable f) →
    Attachable fs.flatten
  | [], _ => attachable_nil
  | f :: fs, h => by
    rw [List.flatten_cons]
    exact (h f (by simp)).append (attachable_flatten fun f' hf' => h f' (by simp [hf']))

/-- Fragments with a mark between each two. -/
theorem legible_join (hm : Mark mark) : ∀ {fs : List Fragment}, (∀ f ∈ fs, Legible f) →
    Legible (join mark fs)
  | [], _ => legible_nil
  | [f], h => by
    rw [join_singleton]
    exact h f (by simp)
  | f :: g :: fs, h => by
    rw [join_cons_cons]
    exact hm.between (h f (by simp)) (legible_join hm fun f' hf' => h f' (by simp [hf']))

theorem trailing_join (hm : Mark mark) : ∀ {fs : List Fragment}, (∀ f ∈ fs, Trailing f) →
    Trailing (join mark fs)
  | [], _ => trailing_nil
  | [f], h => by
    rw [join_singleton]
    exact h f (by simp)
  | f :: g :: fs, h => by
    have hmark : Trailing [.text mark] := by simpa [Trailing] using hm.right
    rw [join_cons_cons, List.append_cons]
    exact ((h f (by simp)).append hmark).append
      (trailing_join hm fun f' hf' => h f' (by simp [hf']))

end Fragment

end Sql

end QueryLayer
