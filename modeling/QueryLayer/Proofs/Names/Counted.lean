import QueryLayer.Proofs.Names.Quoted

/-!
# Counting placeholders from the outside

`placeholderCount` reads a text with one state only: the quote that ends the
stretch it is in. A doubled quote closes the stretch and opens it again, which is
harmless where names begin and end with the same quote. Where they do not, a
closing quote inside a name leaves the scanner outside while the name goes on,
and a question mark behind it is counted
(`placeholderCount_of_bracketed_ne_length`). Without such names the count is the
number of bound values (`placeholderCount_eq_length`).
-/

namespace QueryLayer

namespace Sql

open Fragment

variable {d : Dialect} {values : List Value} {rest : List Char}

/-! ## What is counted over a piece -/

/-- Words and marks are passed over. -/
theorem countPlaceholders_text {cs : List Char} (hcs : ∀ c ∈ cs, c ∉ quoteMarks ∧ c ≠ '?') :
    countPlaceholders none (cs ++ rest) = countPlaceholders none rest := by
  induction cs with
  | nil => rfl
  | cons c cs ih =>
    obtain ⟨⟨hquote, hmark⟩, hcs⟩ := List.forall_mem_cons.1 hcs
    have hclosing : closingOf c = none := by
      cases h : closingOf c with
      | none => rfl
      | some c' => exact absurd (mem_quoteMarks_of_closingOf h).1 hquote
    rw [List.cons_append, countPlaceholders, if_neg hmark, hclosing, ih hcs]

/-- Inside a stretch everything but its closing quote is passed over. -/
theorem countPlaceholders_inside {close c : Char} (hc : c ≠ close) (cs : List Char) :
    countPlaceholders (some close) (c :: cs) = countPlaceholders (some close) cs := by
  rw [countPlaceholders, if_neg hc]

/-- The closing quote leads out. -/
theorem countPlaceholders_close (close : Char) (cs : List Char) :
    countPlaceholders (some close) (close :: cs) = countPlaceholders none cs := by
  rw [countPlaceholders, if_pos rfl]

/-- An opening quote leads in. -/
theorem countPlaceholders_open {q : Text.Quotes} (hq : closingOf q.opening = some q.closing)
    (cs : List Char) : countPlaceholders none (q.opening :: cs) = countPlaceholders (some q.closing) cs := by
  have hmark : q.opening ≠ '?' := by
    intro h
    rw [h] at hq
    cases hq
  rw [countPlaceholders, if_neg hmark, hq]

/-- The scanner comes out of a token where the token ends: its quotes are the
same, or its content holds no closing quote. -/
def Resumes (q : Text.Quotes) (content : List Char) : Prop :=
  q.opening = q.closing ∨ q.closing ∉ content

/-- **Over a whole token nothing is counted.** -/
theorem countPlaceholders_wrap {q : Text.Quotes} (hq : closingOf q.opening = some q.closing)
    {content : List Char} (hcontent : Resumes q content) :
    countPlaceholders none (q.wrap content ++ rest) = countPlaceholders none rest := by
  have hinside : countPlaceholders (some q.closing) (q.double content ++ (q.closing :: rest)) =
      countPlaceholders none rest := by
    induction content with
    | nil => exact countPlaceholders_close q.closing rest
    | cons c content ih =>
      have hrest : Resumes q content := hcontent.imp id fun h hmem => h (by simp [hmem])
      by_cases hc : c = q.closing
      · -- the first quote of the two leads out, and the second one in again
        have hsame : q.opening = q.closing := hcontent.resolve_right fun h => h (by simp [hc])
        have hagain := countPlaceholders_open hq (q.double content ++ (q.closing :: rest))
        rw [hsame] at hagain
        rw [Text.Quotes.double, if_pos hc, hc, List.cons_append, List.cons_append,
          countPlaceholders_close, hagain, ih hrest]
      · rw [Text.Quotes.double, if_neg hc, List.cons_append, countPlaceholders_inside hc, ih hrest]
  rw [Text.Quotes.wrap, List.cons_append, countPlaceholders_open hq, List.append_assoc,
    List.singleton_append, hinside]

/-- **A clean fragment is counted piece by piece**: each slot once. -/
theorem countPlaceholders_write {q : Text.Quotes} (hq : Known q) : ∀ {f : Fragment},
    (∀ p ∈ f, p.Clean) → (∀ n, (QuoteKind.name, n) ∈ quoted f → Resumes q n) →
      countPlaceholders none (write q f) = (bound f).length := by
  intro f
  induction f with
  | nil => intros; rfl
  | cons p f ih =>
    intro hall hnames
    obtain ⟨hp, hclean⟩ := List.forall_mem_cons.1 hall
    clear hall
    have hwrite : write q (p :: f) = p.write q ++ write q f := rfl
    rw [hwrite]
    cases p with
    | text s =>
      rw [Piece.write, countPlaceholders_text hp.2, ih hclean hnames]
      rfl
    | name n =>
      rw [quoted_name_cons] at hnames
      have hn : Resumes q n.toList := hnames n.toList (List.mem_cons_self ..)
      rw [Piece.write, countPlaceholders_wrap hq.2 hn,
        ih hclean fun m hm => hnames m (List.mem_cons_of_mem _ hm)]
      rfl
    | literal content =>
      rw [quoted_literal_cons] at hnames
      rw [Piece.write, countPlaceholders_wrap rfl (.inl rfl),
        ih hclean fun m hm => hnames m (List.mem_cons_of_mem _ hm)]
      rfl
    | slot s v =>
      rw [Piece.write, List.singleton_append, countPlaceholders, if_pos rfl, ih hclean hnames]
      rfl

/-! ## What is counted in a command -/

/-- Among the dialects of the library, one has names between brackets. -/
theorem opening_eq_closing (hd : d ∈ Dialect.builtin) (hne : d ≠ .mssql) :
    d.quotes.opening = d.quotes.closing := by
  simp only [Dialect.builtin, List.mem_cons, List.not_mem_nil, or_false] at hd
  rcases hd with rfl | rfl | rfl | rfl | rfl | rfl
  · rfl
  · rfl
  · rfl
  · exact absurd rfl hne
  · rfl
  · rfl

/-- A find with one test on a field of this name. -/
def testOf (field : String) : Statement :=
  .find ⟨⟨⟨"shop", "users"⟩,
    [.condition ⟨.equals, ⟨.plain field, none⟩, .literal (.int 1), none⟩]⟩, []⟩

/-- The count is not always the number of bound values: behind a closing bracket
in a name, a question mark of the name is counted as well. -/
theorem placeholderCount_of_bracketed_ne_length :
    ¬ ∀ d ∈ Dialect.builtin, ∀ s : Statement, s.PlainEngine → ∀ values q,
      render d s values = .ok q → q.placeholderCount = q.params.length := by
  intro h
  have hd : Dialect.mssql ∈ Dialect.builtin := by simp [Dialect.builtin]
  have hplain : (testOf "a]?b").PlainEngine := by rintro c ⟨⟩
  have hq : render .mssql (testOf "a]?b") [] = .ok _ := rfl
  have hcount := h .mssql hd (testOf "a]?b") hplain [] _ hq
  revert hcount
  decide +kernel

/-- **The count is the number of bound values**, whatever a statement without a
storage engine holds; only where names stand between brackets must they hold no
closing bracket. -/
theorem placeholderCount_eq_length (hd : d ∈ Dialect.builtin) {s : Statement} (hs : s.PlainEngine)
    (hnames : d = .mssql → ∀ n, (QuoteKind.name, n) ∈ commandNames d s → ']' ∉ n) {q : Query}
    (h : render d s values = .ok q) : q.placeholderCount = q.params.length := by
  have hreadable := Dialect.readable_of_builtin hd
  have hlegible := (legible_render hreadable hs h).1
  have hquoted := (quoted_render hreadable hs h).1
  have hresumes : ∀ n, (QuoteKind.name, n) ∈ quoted q.command → Resumes d.quotes n := by
    intro n hn
    rw [hquoted] at hn
    by_cases hmssql : d = .mssql
    · have hfree := hnames hmssql n hn
      subst hmssql
      exact .inr hfree
    · exact .inl (opening_eq_closing hd hmssql)
  rw [Query.placeholderCount, placeholderCount, Query.text, String.toList_ofList, quotes_render h]
  exact countPlaceholders_write hreadable.quotes hlegible.1 hresumes

theorem placeholderCount_of_marked_eq_length :
    ∃ q, render .mssql (testOf "a[?'b") [] = .ok q ∧
      q.text = "SELECT * FROM [shop].[users]  WHERE [a[?'b]=?" ∧ q.params.length = 1 ∧
      q.placeholderCount = q.params.length := by
  have hd : Dialect.mssql ∈ Dialect.builtin := by simp [Dialect.builtin]
  have hplain : (testOf "a[?'b").PlainEngine := by rintro c ⟨⟩
  have hnames : Dialect.mssql = Dialect.mssql → ∀ n,
      (QuoteKind.name, n) ∈ commandNames .mssql (testOf "a[?'b") → ']' ∉ n := by
    intro _ n hn
    have hlist : commandNames .mssql (testOf "a[?'b") =
        [quotedName "shop", quotedName "users", quotedName "a[?'b"] := rfl
    rw [hlist] at hn
    simp only [quotedName, List.mem_cons, List.not_mem_nil, or_false, Prod.mk.injEq, true_and] at hn
    rcases hn with rfl | rfl | rfl <;> decide
  have hq : render .mssql (testOf "a[?'b") [] = .ok _ := rfl
  exact ⟨_, hq, by decide +kernel, rfl, placeholderCount_eq_length hd hplain hnames hq⟩

end Sql

end QueryLayer
