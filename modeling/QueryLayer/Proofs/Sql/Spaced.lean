import QueryLayer.Proofs.Language.Accepted
import QueryLayer.Proofs.Names.Enclosed
import QueryLayer.Proofs.Sql.Token
import QueryLayer.Proofs.Sql.Vocabulary

/-!
# Blanks before clauses

Each clause begins with a word of its own, and reads best behind a blank. All
clauses but the joins bring this blank along; before a join it is left to what
stands there. Between joins there is one, and so there is behind the head of a
find, a count and a delete. The head of an update ends with the assignments, and
a join follows on their last placeholder at once.

So a text is spaced unless it is that of an update with a join, and there the one
blank is all that is missing (`clauses_spaced_iff`).
-/

namespace QueryLayer

namespace Statement

/-- An update with a join, on its top level or inside a filter. -/
def JoinsUpdate : Statement → Prop
  | .update s => (Entry.partsAll s.entries).joins ≠ []
  | _ => False

end Statement

namespace Sql

open Fragment

/-- The words that clauses begin with; of two words, the first one. -/
def clauseWords : List String :=
  ["INNER", "LEFT", "RIGHT", "FULL", "WHERE", "GROUP", "ORDER", "LIMIT", "OFFSET"]

/-- A word outside of quotes. -/
def plainWord (word : String) : List (Lexeme Unit) := word.toList.map (.plain · ())

/-- A blank outside of quotes. -/
def plainBlank : Lexeme Unit := .plain ' ' ()

/-- Outside of quotes, a blank stands right before each word that a clause begins
with. -/
def Spaced (ls : List (Lexeme Unit)) : Prop :=
  ∀ word ∈ clauseWords, ∀ before after, before ++ plainWord word ++ after = ls →
    before.getLast? = some plainBlank

/-- The same for what is read behind `start`, which may bring the first blank. -/
def SpacedBehind (start ls : List (Lexeme Unit)) : Prop :=
  ∀ word ∈ clauseWords, ∀ before after, before ++ plainWord word ++ after = ls →
    (start ++ before).getLast? = some plainBlank

/-! ## Words and where they may stand -/

theorem isWord_of_mem_plainWord {word : String} (hword : word ∈ clauseWords) :
    ∀ l ∈ plainWord word, l.isWord = true := by
  revert word
  decide

theorem plainWord_ne_nil {word : String} (hword : word ∈ clauseWords) : plainWord word ≠ [] := by
  revert word
  decide

variable {start ls ls' : List (Lexeme Unit)} {l : Lexeme Unit}

theorem spacedBehind_nil (start : List (Lexeme Unit)) : SpacedBehind start [] := by
  intro word hword before after h
  simp only [List.append_eq_nil_iff] at h
  exact absurd h.1.2 (plainWord_ne_nil hword)

/-- A word stands at the front, or further back. -/
theorem SpacedBehind.cons
    (hfront : (∃ word ∈ clauseWords, plainWord word <+: l :: ls) → start.getLast? = some plainBlank)
    (hback : SpacedBehind (start ++ [l]) ls) : SpacedBehind start (l :: ls) := by
  intro word hword before after heq
  cases before with
  | nil =>
    rw [List.append_nil]
    exact hfront ⟨word, hword, after, by simpa using heq⟩
  | cons l' before =>
    obtain ⟨rfl, hls⟩ := List.cons.inj heq
    have hlast := hback word hword before after hls
    rwa [List.append_assoc] at hlast

/-- What is spaced by itself is so behind anything. -/
theorem Spaced.behind (h : Spaced ls) (start : List (Lexeme Unit)) : SpacedBehind start ls := by
  intro word hword before after heq
  rw [List.getLast?_append, h word hword before after heq]
  rfl

/-- Without words there is nothing to see to. -/
theorem spaced_of_no_word (h : ∀ l ∈ ls, l.isWord = false) : Spaced ls := by
  intro word hword before after heq
  obtain ⟨l, rest, hl⟩ := List.exists_cons_of_ne_nil (plainWord_ne_nil hword)
  have hmem : l ∈ plainWord word := by simp [hl]
  have htrue := isWord_of_mem_plainWord hword l hmem
  have hfalse := h l (by simp [← heq, hmem])
  rw [htrue] at hfalse
  cases hfalse

/-- No word runs from the first lexemes into the second ones. -/
def WordsEnd (ls ls' : List (Lexeme Unit)) : Prop :=
  ∀ l ∈ ls.getLast?, ∀ l' ∈ ls'.head?, l.isWord = true → l'.isWord = false

/-- **Lexemes stay spaced together** where no word runs on: a word stands in the
first ones or in the second ones. -/
theorem SpacedBehind.append (hls : SpacedBehind start ls) (hls' : SpacedBehind (start ++ ls) ls')
    (hends : WordsEnd ls ls') : SpacedBehind start (ls ++ ls') := by
  intro word hword before after heq
  rw [List.append_assoc] at heq
  rcases List.append_eq_append_iff.1 heq with ⟨middle, hbefore, hrest⟩ | ⟨middle, hbefore, hrest⟩
  · rcases List.append_eq_append_iff.1 hrest with ⟨behind, hmiddle, -⟩ | ⟨behind, hmiddle, hbehind⟩
    · -- the whole word stands in the first lexemes
      exact hls word hword before behind (by rw [hbefore, hmiddle, List.append_assoc])
    · -- a word in both would run on, unless it begins with the second ones
      rcases List.eq_nil_or_concat' middle with rfl | ⟨first, last, rfl⟩
      · rw [List.nil_append] at hmiddle
        have hlast := hls' word hword [] after (by simp [hmiddle, hbehind])
        rwa [List.append_nil, hbefore, List.append_nil] at hlast
      · cases behind with
        | nil =>
          rw [List.append_nil] at hmiddle
          exact hls word hword before [] (by rw [List.append_nil, hmiddle, hbefore])
        | cons next behind =>
          have hmem := isWord_of_mem_plainWord hword
          have hlast : last.isWord = true := hmem last (by simp [hmiddle])
          have hnext : next.isWord = true := hmem next (by simp [hmiddle])
          have hfalse := hends last (by simp [hbefore]) next (by simp [hbehind]) hlast
          rw [hnext] at hfalse
          cases hfalse
  · have hlast := hls' word hword middle after (by rw [List.append_assoc, hrest])
    rwa [List.append_assoc, ← hbefore] at hlast

/-- From the start on there is no blank but in the lexemes. -/
theorem Spaced.append (hls : Spaced ls) (hls' : SpacedBehind ls ls') (hends : WordsEnd ls ls') :
    Spaced (ls ++ ls') := by
  have hstart : SpacedBehind [] ls := hls
  exact hstart.append hls' hends

/-- A blank may stand before anything. -/
theorem SpacedBehind.blank_cons (h : SpacedBehind (start ++ [plainBlank]) ls) :
    SpacedBehind start (plainBlank :: ls) := by
  have hblank : Spaced [plainBlank] := spaced_of_no_word (by decide)
  refine (hblank.behind start).append h fun l hl l' _ hword => ?_
  obtain rfl : plainBlank = l := by simpa using hl
  cases hword

/-! ## Reading a text for its words -/

/-- No word that a clause begins with stands in the characters, except behind a blank;
there is one before them if `blank` says so. -/
def spacedChars : Bool → List Char → Bool
  | _, [] => true
  | blank, c :: cs =>
    (blank || !clauseWords.any fun word => word.toList.isPrefixOf (c :: cs)) &&
      spacedChars (c == ' ') cs

theorem SpacedBehind.of_spacedChars : ∀ {blank : Bool} {cs : List Char}
    {start : List (Lexeme Unit)}, spacedChars blank cs = true →
      (blank = true → start.getLast? = some plainBlank) →
        SpacedBehind start (cs.map (.plain · ()))
  | _, [], start, _, _ => spacedBehind_nil start
  | blank, c :: cs, start, hcs, hstart => by
    obtain ⟨hfront, hback⟩ := Bool.and_eq_true_iff.1 hcs
    refine SpacedBehind.cons ?_ (SpacedBehind.of_spacedChars hback fun hc => ?_)
    · rintro ⟨word, hword, hprefix⟩
      have hinjective : Function.Injective fun c : Char => Lexeme.plain c () :=
        fun _ _ h => (Lexeme.plain.inj h).1
      have hchars : word.toList <+: c :: cs := (List.prefix_map_iff_of_injective hinjective).1 hprefix
      have hany : (clauseWords.any fun word => word.toList.isPrefixOf (c :: cs)) = true :=
        List.any_eq_true.2 ⟨word, hword, List.isPrefixOf_iff_prefix.2 hchars⟩
      rw [hany, Bool.not_true, Bool.or_false] at hfront
      exact hstart hfront
    · rw [List.getLast?_concat, eq_of_beq hc]
      rfl

/-! ## Fragments -/

namespace Fragment

variable {f g : Fragment}

theorem lexed_append (f g : Fragment) : lexed (f ++ g) = lexed f ++ lexed g := by
  simp [lexed]

theorem lexed_cons (p : Piece) (f : Fragment) :
    lexed (p :: f) = p.lexemes (fun _ => ()) ++ lexed f := by
  simp [lexed]

theorem lexed_prefix (h : f <+: g) : lexed f <+: lexed g := by
  obtain ⟨rest, rfl⟩ := h
  rw [lexed_append]
  exact List.prefix_append _ _

theorem lexed_text (s : String) : lexed [.text s] = plainWord s := List.flatMap_singleton ..

/-- In a legible fragment words end where pieces do. -/
theorem Legible.wordsEnd (h : Legible (f ++ g)) : WordsEnd (lexed f) (lexed g) := by
  rcases List.eq_nil_or_concat' f with rfl | ⟨f, p, rfl⟩
  · simp [WordsEnd, lexed]
  · cases g with
    | nil => simp [WordsEnd, lexed]
    | cons p' g =>
      obtain ⟨hclean, hchain⟩ := h
      have hapart : p.Apart p' := (List.isChain_append.1 hchain).2.2 p (by simp) p' (by simp)
      intro l hl l' hl' hword
      rw [lexed_append, lexed_cons] at hl
      rw [lexed_cons] at hl'
      by_cases hedge : p.rightEdge = .word
      · have hleft : p'.leftEdge ≠ .word := hapart.leftEdge_ne hedge (by decide)
        exact Piece.isWord_first_lexeme (hclean p' (by simp)) hleft _ l' hl'
      · -- the last lexeme before is no part of a word
        obtain ⟨ls, last, hls, hlast⟩ := Piece.exists_last_lexeme (hclean p (by simp)) hedge
        obtain rfl : last = l := by simpa [hls, lexed] using hl
        rw [hlast] at hword
        cases hword

end Fragment

/-- The words of a search are spaced. -/
theorem spaced_of_mem_searchTexts {s : String} (hs : s ∈ searchTexts) : Spaced (plainWord s) := by
  have hchars : ∀ s ∈ searchTexts, spacedChars false s.toList = true := by decide +kernel
  have hspaced : SpacedBehind [] (plainWord s) := .of_spacedChars (hchars s hs) nofun
  exact hspaced

/-- Those of joins are so behind a blank. -/
theorem spacedBehind_of_mem_joinTexts {s : String} (hs : s ∈ joinTexts)
    (hstart : start.getLast? = some plainBlank) : SpacedBehind start (plainWord s) := by
  have hchars : ∀ s ∈ joinTexts, spacedChars true s.toList = true := by decide +kernel
  exact .of_spacedChars (hchars s hs) fun _ => hstart

/-- **A fragment of the words of a search is spaced.** -/
theorem spaced_lexed : ∀ {f : Fragment}, Legible f → texts f ⊆ searchTexts → Spaced (lexed f)
  | [], _, _ => spacedBehind_nil []
  | p :: f, hf, htexts => by
    have hends : WordsEnd (lexed [p]) (lexed f) := Legible.wordsEnd (f := [p]) hf
    have hrest : Legible f := ⟨fun p' hp' => hf.1 p' (by simp [hp']), (List.isChain_cons.1 hf.2).2⟩
    have hp : Spaced (lexed [p]) := by
      rw [lexed, List.flatMap_singleton]
      cases p with
      | text s => exact spaced_of_mem_searchTexts (htexts (by simp))
      | name n | literal content => exact spaced_of_no_word (by simp [Piece.lexemes, Lexeme.isWord])
      | slot s v => exact spaced_of_no_word (by simp [Piece.lexemes, Piece.isWord_placeholder])
    have htail : texts f ⊆ searchTexts := by
      cases p with
      | text s => exact (List.cons_subset.1 htexts).2
      | name n | literal content | slot s v => exact htexts
    have happend : lexed (p :: f) = lexed [p] ++ lexed f := lexed_append [p] f
    rw [happend]
    exact hp.append ((spaced_lexed hrest htail).behind _) hends

variable {d : Dialect}

theorem spacedBehind_join (hstart : start.getLast? = some plainBlank) (d : Dialect) (j : Join) :
    SpacedBehind start (lexed (join d j)) := by
  have hword : j.joinType.keyword ++ " JOIN " ∈ joinTexts := by
    cases j.joinType <;> decide
  have hlegible := legible_joinClause d j
  have hjoined : Legible (d.table j.collection ++ joinPairs d j.pairs) :=
    (legible_table d j.collection).attach (attachable_joinPairs d j.pairs)
  have hrest := spaced_lexed hjoined (texts_joined_subset d j)
  rw [join, ← List.singleton_append] at hlegible ⊢
  rw [lexed_append]
  refine SpacedBehind.append ?_ (hrest.behind _) hlegible.wordsEnd
  rw [lexed_text]
  exact spacedBehind_of_mem_joinTexts hword hstart

/-- **Joins are spaced behind a blank**, and there is one between each two. -/
theorem spacedBehind_joins (d : Dialect) : ∀ (js : List Join) {start : List (Lexeme Unit)},
    start.getLast? = some plainBlank → SpacedBehind start (lexed (joins d js))
  | [], start, _ => spacedBehind_nil start
  | [j], _, hstart => by
    rw [joins, List.map_singleton, join_singleton]
    exact spacedBehind_join hstart d j
  | j :: k :: js, start, hstart => by
    have hlegible := legible_joins d (j :: k :: js)
    simp only [joins, List.map_cons, join_cons_cons] at hlegible ⊢
    rw [lexed_append]
    refine (spacedBehind_join hstart d j).append ?_ hlegible.wordsEnd
    rw [lexed_cons]
    refine SpacedBehind.blank_cons ?_
    exact spacedBehind_joins d (k :: js) (by simp)

/-- The clauses are spaced behind a blank, or without joins. -/
theorem spacedBehind_clauses (d : Dialect) (p : Plan)
    (h : start.getLast? = some plainBlank ∨ p.joins = []) :
    SpacedBehind start (lexed (clauses d p)) := by
  have hlegible := legible_clauses d p
  have hunjoined : Legible (filter p.predicates ++ groupBy p.groups ++ orderBy d p.toClauses ++
      window d p.window) :=
    (((attachable_filter _).append (attachable_groupBy _)).append
      (attachable_orderBy d _)).append (attachable_window d _) |>.legible
  have hspaced := spaced_lexed hunjoined (texts_unjoined_subset d p)
  rw [clauses_eq] at hlegible ⊢
  rw [lexed_append]
  refine SpacedBehind.append ?_ (hspaced.behind _) hlegible.wordsEnd
  rcases h with hstart | hnone
  · exact spacedBehind_joins d p.joins hstart
  · rw [hnone]
    exact spacedBehind_nil start

/-! ## Statements -/

variable {values : List Value}

theorem readTexts_single (hq : Known d.quotes) {f : Fragment} (hf : Legible f) :
    (single d f).readTexts = some [lexed f] :=
  readTexts_eq hq hf fun _ hg => absurd hg List.not_mem_nil

/-- **A head and clauses are spaced** if there is a blank between them. -/
theorem Headed.spaced {f : Fragment} (h : Headed d f) (hlegible : Legible f) :
    Spaced (lexed f) := by
  obtain ⟨head, p, rfl, hhead⟩ := h
  have hspaced := spaced_lexed hlegible.of_append hhead
  have hclauses : SpacedBehind (lexed head ++ [plainBlank]) (lexed (clauses d p)) :=
    spacedBehind_clauses d p (.inl (by simp))
  have hends := hlegible.wordsEnd
  rw [lexed_append]
  exact hspaced.append hclauses.blank_cons hends

/-- The clauses begin with the word of a join, if there is one. -/
theorem exists_word_prefix_clauses (d : Dialect) {p : Plan} (h : p.joins ≠ []) :
    ∃ word ∈ clauseWords, plainWord word <+: lexed (clauses d p) := by
  obtain ⟨j, js, hjs⟩ := List.exists_cons_of_ne_nil h
  have hword : j.joinType.keyword ∈ clauseWords := by
    cases j.joinType <;> decide
  have hfront : plainWord j.joinType.keyword <+: plainWord (j.joinType.keyword ++ " JOIN ") := by
    simp [plainWord]
  have hjoin : [.text (j.joinType.keyword ++ " JOIN ")] <+: join d j := by
    simp [join]
  have hjoins : join d j <+: joins d (j :: js) := by
    cases js with
    | nil => rw [joins, List.map_singleton, join_singleton]
    | cons k js =>
      rw [joins, List.map_cons, List.map_cons, join_cons_cons]
      exact List.prefix_append _ _
  have hclauses : joins d p.joins <+: clauses d p := clauses_eq d p ▸ List.prefix_append _ _
  rw [hjs] at hclauses
  have hlexed := lexed_prefix ((hjoin.trans hjoins).trans hclauses)
  rw [lexed_text] at hlexed
  exact ⟨_, hword, hfront.trans hlexed⟩

/-- **An update is spaced exactly if it has no joins.** With a blank behind its
assignments it is spaced in any case. -/
theorem spaced_update {s : Search} {f : Fragment} (h : update d s values = .ok f) :
    (Spaced (lexed f) ↔ (Entry.partsAll s.entries).joins = []) ∧
      ∃ before after, before ++ after = lexed f ∧ before.getLast? = some (.plain '?' ()) ∧
        ((Entry.partsAll s.entries).joins ≠ [] → ∃ word ∈ clauseWords, plainWord word <+: after) ∧
        Spaced (before ++ plainBlank :: after) := by
  have hlegible := legible_update h
  obtain ⟨head, v, p, rfl, hhead, hparts⟩ := update_eq_head h
  rw [← hparts.joins]
  rw [List.append_cons] at hlegible ⊢
  have htexts : texts (head ++ [.slot .assignment v]) ⊆ searchTexts := by simpa using hhead
  have hspaced := spaced_lexed hlegible.of_append htexts
  have hlast : (lexed (head ++ [.slot .assignment v])).getLast? = some (.plain '?' ()) := by
    simp [lexed, Piece.lexemes]
  have hends := hlegible.wordsEnd
  rw [lexed_append]
  refine ⟨⟨fun hall => ?_, fun hnone => ?_⟩, _, _, rfl, hlast, exists_word_prefix_clauses d, ?_⟩
  · by_contra hjoins
    obtain ⟨word, hword, after, hafter⟩ := exists_word_prefix_clauses d hjoins
    have hblank := hall word hword _ after (by rw [List.append_assoc, hafter])
    rw [hlast] at hblank
    cases hblank
  · exact hspaced.append (spacedBehind_clauses d p (.inr hnone)) hends
  · refine hspaced.append (SpacedBehind.blank_cons ?_) ?_
    · exact spacedBehind_clauses d p (.inl (by simp))
    · intro l _ l' hl' _
      obtain rfl : plainBlank = l' := by simpa using hl'
      rfl

/-- An update of one column, with a join. -/
def joinedUpdate : Search where
  collection := ⟨"shop", "users"⟩
  entries := [.set ⟨⟨none, none, "a"⟩, .literal (.int 1), none⟩,
    .join ⟨⟨"shop", "teams"⟩, .inner, [⟨⟨"shop", "users"⟩, "team_id", some ⟨"shop", "teams"⟩, "id"⟩]⟩]

/-- Not every clause is preceded by a blank: in an update, a join follows on the
placeholder before it. -/
theorem clauses_of_joinedUpdate_not_spaced :
    ¬ ∀ d ∈ Dialect.builtin, ∀ s : Statement, s.IsSearch → ∀ values q,
      render d s values = .ok q → ∃ ls, q.readTexts = some [ls] ∧ Spaced ls := by
  intro h
  have hd : Dialect.sqlite ∈ Dialect.builtin := by simp [Dialect.builtin]
  have hf : update .sqlite joinedUpdate [] = .ok _ := rfl
  have hq : render .sqlite (.update joinedUpdate) [] = .ok (single .sqlite _) := rfl
  obtain ⟨ls, hls, hspaced⟩ := h .sqlite hd (.update joinedUpdate) trivial [] _ hq
  rw [readTexts_single (known_of_builtin hd) (legible_update hf)] at hls
  obtain rfl := (List.cons.inj (Option.some.inj hls)).1
  exact absurd ((spaced_update hf).1.1 hspaced) (List.cons_ne_nil _ _)

/-- **Clauses do not run into each other**, in whatever order they were asked for,
except where an update has a join. Its text is spaced up to the last placeholder of
its assignments and behind it, and the only blank that is missing is the one between
this placeholder and the first join. -/
theorem clauses_spaced_iff (hd : d ∈ Dialect.builtin) {s : Statement} (hs : s.IsSearch) {q : Query}
    (h : render d s values = .ok q) : ∃ ls, q.readTexts = some [ls] ∧
      (Spaced ls ↔ ¬ s.JoinsUpdate) ∧
      (s.JoinsUpdate → ∃ before after, before ++ after = ls ∧
        before.getLast? = some (.plain '?' ()) ∧ (∃ word ∈ clauseWords, plainWord word <+: after) ∧
        Spaced (before ++ plainBlank :: after)) := by
  have hknown := known_of_builtin hd
  cases s with
  | find s =>
    obtain ⟨f, hf, rfl⟩ := Run.outcome_map_eq_ok.1 h
    have hlegible := legible_select hf
    have hspaced := (headed_select hf).spaced hlegible
    exact ⟨_, readTexts_single hknown hlegible, iff_of_true hspaced id, False.elim⟩
  | count s =>
    obtain ⟨f, hf, rfl⟩ := Run.outcome_map_eq_ok.1 h
    have hlegible := legible_count hf
    have hspaced := (headed_count hf).spaced hlegible
    exact ⟨_, readTexts_single hknown hlegible, iff_of_true hspaced id, False.elim⟩
  | delete s =>
    obtain ⟨f, hf, rfl⟩ := Run.outcome_map_eq_ok.1 h
    have hlegible := legible_delete hf
    have hspaced := (headed_delete hf).spaced hlegible
    exact ⟨_, readTexts_single hknown hlegible, iff_of_true hspaced id, False.elim⟩
  | update s =>
    obtain ⟨f, hf, rfl⟩ := Run.outcome_map_eq_ok.1 h
    obtain ⟨hiff, before, after, happend, hlast, hword, hspaced⟩ := spaced_update hf
    exact ⟨_, readTexts_single hknown (legible_update hf), hiff.trans not_not.symm,
      fun hjoins => ⟨before, after, happend, hlast, hword hjoins, hspaced⟩⟩
  | insert _ | replace _ | create _ | drop _ | clear _ => exact hs.elim

/-- A find with a join, a filter and a window. -/
def joinedFind : Statement :=
  .find ⟨⟨⟨"shop", "users"⟩, [.limit ⟨10, 0⟩,
    .condition ⟨.equals, ⟨.plain "WHERE", none⟩, .literal (.int 1), none⟩,
    .join ⟨⟨"shop", "teams"⟩, .left, [⟨⟨"shop", "users"⟩, "team_id", some ⟨"shop", "teams"⟩, "id"⟩]⟩]⟩,
    []⟩

theorem clauses_of_joinedFind_spaced : ∃ q ls, render .mssql joinedFind [] = .ok q ∧
    q.readTexts = some [ls] ∧ Spaced ls := by
  have hd : Dialect.mssql ∈ Dialect.builtin := by simp [Dialect.builtin]
  have hs : joinedFind.IsSearch := trivial
  have hq : render .mssql joinedFind [] = .ok _ := rfl
  obtain ⟨ls, hls, hiff, -⟩ := clauses_spaced_iff hd hs hq
  exact ⟨_, ls, hq, hls, hiff.2 id⟩

end Sql

end QueryLayer
