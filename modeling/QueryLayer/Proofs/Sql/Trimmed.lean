import QueryLayer.Proofs.Sql.LegibleTable
import QueryLayer.Proofs.Sql.Placeholder

/-!
# Fragments without the blanks at their end

A search that fills a new table loses the blanks at its end. Only the words and
marks of SQL can lose some, since every name ends with a quote and every slot
with its placeholder. So what is left is as legible as before, and it has the
same slots.
-/

namespace QueryLayer

namespace Sql

namespace Fragment

theorem trimEnd_concat (cs : List Char) {c : Char} (hc : Text.isBlank c = false) :
    Text.trimEnd (cs ++ [c]) = cs ++ [c] := by
  simp [Text.trimEnd, hc]

/-- Blanks reach back into the first text only where the second one is blank. -/
theorem trimEnd_append (cs ds : List Char) : Text.trimEnd (cs ++ ds) =
    if (Text.trimEnd ds).isEmpty then Text.trimEnd cs else cs ++ Text.trimEnd ds := by
  simp only [Text.trimEnd, List.reverse_append, List.dropWhile_append, List.isEmpty_reverse]
  split
  · rfl
  · rw [List.reverse_append, List.reverse_reverse]

/-- A text without its blanks is a beginning of it. -/
theorem trimEnd_prefix (cs : List Char) : Text.trimEnd cs <+: cs := by
  obtain ⟨blanks, h⟩ := List.dropWhile_suffix (l := cs.reverse) Text.isBlank
  refine ⟨blanks.reverse, ?_⟩
  rw [Text.trimEnd, ← List.reverse_append, h, List.reverse_reverse]

theorem isBlank_of_mem_quoteMarks {c : Char} (hc : c ∈ quoteMarks) : Text.isBlank c = false := by
  simp only [quoteMarks, List.mem_cons, List.not_mem_nil, or_false] at hc
  rcases hc with rfl | rfl | rfl | rfl | rfl <;> decide

/-- Only words and marks can end with a blank. -/
theorem trimEnd_write {q : Text.Quotes} (hq : Known q) {p : Piece}
    (hp : ∀ s, p ≠ .text s) : Text.trimEnd (p.write q) = p.write q := by
  cases p with
  | text s => exact absurd rfl (hp s)
  | name n =>
    exact trimEnd_concat (q.opening :: q.double n.toList)
      (isBlank_of_mem_quoteMarks (hq.closing_mem .name))
  | literal content =>
    exact trimEnd_concat ('\'' :: Text.Quotes.literal.double content)
      (isBlank_of_mem_quoteMarks (hq.closing_mem .literal))
  | slot s v => exact trimEnd_concat [] (by decide)

/-- The last piece may lose its end: what it begins with stays. -/
theorem Legible.replace_last {f : Fragment} {p p' : Piece} (h : Legible (f ++ [p]))
    (hclean : p'.Clean) (hedge : p'.leftEdge = p.leftEdge) : Legible (f ++ [p']) := by
  obtain ⟨hall, hchain⟩ := h
  rw [List.isChain_append] at hchain
  obtain ⟨hf, -, hlast⟩ := hchain
  refine ⟨fun x hx => ?_, List.IsChain.append hf (.singleton p') ?_⟩
  · rcases List.mem_append.1 hx with hx | hx
    · exact hall x (by simp [hx])
    · obtain rfl := List.mem_singleton.1 hx
      exact hclean
  · intro x hx y hy
    obtain rfl : p' = y := by simpa using hy
    have hapart := hlast x hx p (by simp)
    unfold Piece.Apart at hapart ⊢
    rwa [hedge]

theorem Legible.of_append {f g : Fragment} (h : Legible (f ++ g)) : Legible f :=
  ⟨fun p hp => h.1 p (by simp [hp]), (List.isChain_append.1 h.2).1⟩

/-- What is left of a text begins as the text does, and is as clean. -/
theorem clean_trimEnd {s : String} (hs : (Piece.text s).Clean)
    (hne : (Text.trimEnd s.toList).isEmpty = false) :
    (Piece.text (String.ofList (Text.trimEnd s.toList))).Clean ∧
      (Piece.text (String.ofList (Text.trimEnd s.toList))).leftEdge = (Piece.text s).leftEdge := by
  have hprefix := trimEnd_prefix s.toList
  generalize Text.trimEnd s.toList = kept at hne hprefix ⊢
  obtain ⟨rest, hrest⟩ := hprefix
  cases kept with
  | nil => cases hne
  | cons c cs =>
    refine ⟨clean_ofList (by simp) fun x hx => hs.2 x ?_, ?_⟩
    · rw [← hrest]
      exact List.mem_append_left _ hx
    · simp [Piece.leftEdge, ← hrest]

/-- A piece that is no text ends the search for blanks. -/
theorem dropBlank_cons {q : Text.Quotes} (hq : Known q) {p : Piece} (hp : ∀ s, p ≠ .text s)
    (r : Fragment) : dropBlank q (p :: r) = p :: r := by
  have hne : (p.write q).isEmpty = false := by
    cases p with
    | text s => exact absurd rfl (hp s)
    | name n | literal content | slot s v => rfl
  simp [dropBlank, trimEnd_write hq hp, hne]

/-- Blanks are dropped from the last piece on. -/
theorem legible_dropBlank {q : Text.Quotes} (hq : Known q) : ∀ {r : Fragment},
    Legible r.reverse → Legible (dropBlank q r).reverse
  | [], h => h
  | p :: r, h => by
    by_cases hp : ∀ s, p ≠ .text s
    · rwa [dropBlank_cons hq hp]
    · obtain ⟨s, rfl⟩ : ∃ s, p = .text s := by simpa using hp
      rw [List.reverse_cons] at h
      have hr : Legible r.reverse := h.of_append
      have hs : (Piece.text s).Clean := h.1 (.text s) (by simp)
      rw [dropBlank]
      split
      · exact legible_dropBlank hq hr
      · next hkept =>
        -- the text keeps its beginning, which is what the piece before it touches
        have htrim := clean_trimEnd hs (eq_false_of_ne_true hkept)
        split
        · rwa [List.reverse_cons]
        · rw [List.reverse_cons]
          exact h.replace_last htrim.1 htrim.2

/-- Dropping blanks keeps whatever is no text. -/
theorem filterMap_dropBlank {β : Type} {k : Piece → Option β} (hk : ∀ s, k (.text s) = none)
    {q : Text.Quotes} (hq : Known q) : ∀ r : Fragment,
      (dropBlank q r).reverse.filterMap k = r.reverse.filterMap k
  | [] => rfl
  | p :: r => by
    by_cases hp : ∀ s, p ≠ .text s
    · rw [dropBlank_cons hq hp]
    · obtain ⟨s, rfl⟩ : ∃ s, p = .text s := by simpa using hp
      rw [dropBlank]
      split
      · simp [filterMap_dropBlank hk hq r, hk]
      · split <;> simp [hk]

theorem filterMap_trimEnd {β : Type} {k : Piece → Option β} (hk : ∀ s, k (.text s) = none)
    {q : Text.Quotes} (hq : Known q) (f : Fragment) :
    (trimEnd q f).filterMap k = f.filterMap k := by
  rw [trimEnd, filterMap_dropBlank hk hq, List.reverse_reverse]

/-- The blanks at the end of a text are those of its last pieces. -/
theorem write_trimEnd (q : Text.Quotes) (f : Fragment) :
    write q (trimEnd q f) = Text.trimEnd (write q f) := by
  have hdrop : ∀ r : Fragment,
      write q (dropBlank q r).reverse = Text.trimEnd (write q r.reverse) := by
    intro r
    induction r with
    | nil => rfl
    | cons p r ih =>
      rw [dropBlank, List.reverse_cons, write_append, write_cons, write_nil, List.append_nil,
        trimEnd_append]
      split
      · exact ih
      · split
        · next hkept => simp [write_cons, write_nil, hkept]
        · simp [write_cons, write_nil, Piece.write]
  rw [trimEnd, hdrop, List.reverse_reverse]

theorem legible_trimEnd {q : Text.Quotes} (hq : Known q) {f : Fragment} (hf : Legible f) :
    Legible (trimEnd q f) :=
  legible_dropBlank hq (by rwa [List.reverse_reverse])

theorem slots_trimEnd {q : Text.Quotes} (hq : Known q) (f : Fragment) :
    slots (trimEnd q f) = slots f :=
  filterMap_trimEnd (fun _ => rfl) hq f

end Fragment

end Sql

end QueryLayer
