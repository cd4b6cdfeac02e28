import QueryLayer.Proofs.Pattern.Like

/-!
# LIKE without an escape character

An engine without an escape character takes the backslashes in the text of a
pattern for characters of the subject, and brackets may hold a set for it. It
matches what the pattern describes exactly if no text of the pattern holds a
special character (`matches_like_iff_unmarked`).

Where one does, a subject tells the two apart by its count of characters. What
is matched has a backslash for each one in the text of the pattern, and a
described subject need not have more than the texts ask for. And brackets let a
subject do with fewer bracketing characters than the texts ask for
(`exists_lighter`), while a described subject has all of them.
-/

namespace QueryLayer

namespace Pattern

open Like

section Unescaped

variable {r : Rules} {parts : List Part} {part : Part} {s text subject : List Char}

/-- The character is written with a backslash, or opens brackets for the engine. -/
def Special (r : Rules) (c : Char) : Prop := written c = true ∨ (r.sets = true ∧ c = '[')

instance (r : Rules) : DecidablePred (Special r) := fun _ => inferInstanceAs (Decidable (_ ∨ _))

/-- No text of the pattern holds a special character. -/
def Unmarked (r : Rules) (parts : List Part) : Prop :=
  ∀ s, .exactly s ∈ parts → ∀ c ∈ s, ¬ Special r c

theorem escape_ne (hr : r.escape = none) (c : Char) : r.escape ≠ some c := by
  rw [hr]
  exact (Option.some_ne_none c).symm

theorem tokensFrom_any (hr : r.escape = none) (rest : List Char) :
    tokensFrom r .plain ('%' :: rest) = .any :: tokensFrom r .plain rest := by
  rw [tokensFrom, if_neg (escape_ne hr _), if_pos rfl]

theorem tokensFrom_one (hr : r.escape = none) (rest : List Char) :
    tokensFrom r .plain ('_' :: rest) = .one :: tokensFrom r .plain rest := by
  rw [tokensFrom, if_neg (escape_ne hr _), if_neg (by decide), if_pos rfl]

/-- Other characters stand for themselves, where they open no brackets. -/
theorem tokensFrom_literal (hr : r.escape = none) {c : Char} (hany : c ≠ '%') (hone : c ≠ '_')
    (hset : ¬ (r.sets = true ∧ c = '[')) (rest : List Char) :
    tokensFrom r .plain (c :: rest) = .literal c :: tokensFrom r .plain rest := by
  rw [tokensFrom, if_neg (escape_ne hr _), if_neg hany, if_neg hone, if_neg hset]

/-- A character that is not special stands for itself. -/
theorem tokensFrom_cons_of_not_special (hr : r.escape = none) {c : Char} (hc : ¬ Special r c)
    (rest : List Char) :
    tokensFrom r .plain (c :: rest) = .literal c :: tokensFrom r .plain rest := by
  have hany : c ≠ '%' := fun h => hc (.inl (written_iff.2 (.inl h)))
  have hone : c ≠ '_' := fun h => hc (.inl (written_iff.2 (.inr (.inl h))))
  exact tokensFrom_literal hr hany hone (fun h => hc (.inr h)) rest

theorem tokensFrom_escape_of_not_special (hr : r.escape = none) (hs : ∀ c ∈ s, ¬ Special r c)
    (rest : List Char) :
    tokensFrom r .plain (escape s ++ rest) = s.map .literal ++ tokensFrom r .plain rest := by
  induction s with
  | nil => rfl
  | cons c s ih =>
    obtain ⟨hc, hs⟩ := List.forall_mem_cons.1 hs
    have hwritten : ¬ written c = true := fun h => hc (.inl h)
    rw [escape_cons, if_neg hwritten, List.singleton_append, List.cons_append,
      tokensFrom_cons_of_not_special hr hc, ih hs, List.map_cons, List.cons_append]

theorem readsBack_of_unmarked (hr : r.escape = none) (h : Unmarked r parts) (hpart : part ∈ parts) :
    ReadsBack r part := by
  intro rest
  cases part with
  | exactly s => exact tokensFrom_escape_of_not_special hr (h s hpart) rest
  | any => exact tokensFrom_any hr rest
  | one => exact tokensFrom_one hr rest

/-- The characters that the parts ask for as they are. -/
def Part.content : Part → List Char
  | .exactly s => s
  | .any => []
  | .one => []

/-- Of each kind of characters a described subject has as many as the texts, at
least. -/
theorem countP_le_of_describes (m : Char → Bool) (h : Describes parts subject) :
    (parts.flatMap Part.content).countP m ≤ subject.countP m := by
  induction parts generalizing subject with
  | nil => exact Nat.zero_le _
  | cons part parts ih =>
    obtain ⟨stretch, rest, hstretch, hrest, rfl⟩ := concatenates_cons.1 h
    have hpart : part.content.countP m ≤ stretch.countP m := by
      cases part with
      | exactly s =>
        obtain rfl : stretch = s := hstretch
        exact Nat.le_refl _
      | any | one => exact Nat.zero_le _
    have htail := ih hrest
    rw [List.flatMap_cons, List.countP_append, List.countP_append]
    omega

/-- A short stretch for the part. -/
def Part.sample : Part → List Char
  | .exactly s => s
  | .any => []
  | .one => ['x']

theorem describes_sample (parts : List Part) : Describes parts (parts.flatMap Part.sample) := by
  induction parts with
  | nil => exact concatenates_nil.2 rfl
  | cons part parts ih =>
    refine concatenates_cons.2 ⟨part.sample, _, ?_, ih, rfl⟩
    cases part with
    | exactly s => rfl
    | any => trivial
    | one => exact ⟨'x', rfl⟩

theorem count_sample (parts : List Part) :
    (parts.flatMap Part.sample).count '\\' = (parts.flatMap Part.content).count '\\' := by
  induction parts with
  | nil => rfl
  | cons part parts ih =>
    have hpart : part.sample.count '\\' = part.content.count '\\' := by
      cases part <;> rfl
    rw [List.flatMap_cons, List.flatMap_cons, List.count_append, List.count_append, hpart, ih]

/-! ## Too many backslashes -/

theorem count_escape (s : List Char) :
    (escape s).count '\\' = s.count '\\' + s.countP written := by
  induction s with
  | nil => rfl
  | cons c s ih =>
    rw [escape_cons, List.count_append, List.count_cons, List.countP_cons, ih]
    split_ifs with hwritten hbackslash
    · simp [beq_iff_eq.1 hbackslash]
      omega
    · simp [List.count_cons, hbackslash]
      omega
    · exact absurd (written_iff.2 (.inr (.inr (beq_iff_eq.1 (by assumption))))) hwritten
    · simp [List.count_cons, *]

theorem count_like (parts : List Part) : (parts.flatMap Part.like).count '\\' =
    (parts.flatMap Part.content).count '\\' + (parts.flatMap Part.content).countP written := by
  induction parts with
  | nil => rfl
  | cons part parts ih =>
    have hpart : part.like.count '\\' = part.content.count '\\' + part.content.countP written := by
      cases part with
      | exactly s => exact count_escape s
      | any | one => rfl
    rw [List.flatMap_cons, List.flatMap_cons, List.count_append, List.count_append,
      List.countP_append, hpart, ih]
    omega

/-- Without brackets, what is matched has a backslash for each in the pattern. -/
theorem count_le_of_matches (hr : r.escape = none) (htext : r.sets = true → '[' ∉ text)
    (h : Matches r text subject) : text.count '\\' ≤ subject.count '\\' := by
  rw [Matches, tokens] at h
  induction text generalizing subject with
  | nil => exact Nat.zero_le _
  | cons c text ih =>
    have htail : r.sets = true → '[' ∉ text := fun hsets hmem =>
      htext hsets (List.mem_cons_of_mem _ hmem)
    -- a token in front takes a stretch, which has a backslash if the character is one
    have hstep : ∀ token : Token,
        tokensFrom r .plain (c :: text) = token :: tokensFrom r .plain text →
        (∀ stretch, token.Takes stretch → [c].count '\\' ≤ stretch.count '\\') →
        (c :: text).count '\\' ≤ subject.count '\\' := by
      intro token htoken hcount
      rw [htoken] at h
      obtain ⟨stretch, rest, hstretch, hrest, rfl⟩ := concatenates_cons.1 h
      have hfirst := hcount stretch hstretch
      have hle := ih htail hrest
      rw [← List.singleton_append, List.count_append, List.count_append]
      omega
    by_cases hany : c = '%'
    · subst hany
      exact hstep .any (tokensFrom_any hr text) fun _ _ => Nat.zero_le _
    by_cases hone : c = '_'
    · subst hone
      exact hstep .one (tokensFrom_one hr text) fun _ _ => Nat.zero_le _
    have hset : ¬ (r.sets = true ∧ c = '[') := by
      rintro ⟨hsets, rfl⟩
      exact htext hsets List.mem_cons_self
    refine hstep (.literal c) (tokensFrom_literal hr hany hone hset text) ?_
    rintro _ rfl
    exact Nat.le_refl _

/-- **A text with a written character asks for a backslash too many.** -/
theorem countP_written_eq_zero (hr : r.escape = none)
    (hsets : r.sets = true → '[' ∉ parts.flatMap Part.like)
    (h : ∀ subject, Describes parts subject → Matches r (parts.flatMap Part.like) subject) :
    (parts.flatMap Part.content).countP written = 0 := by
  have hle := count_le_of_matches hr hsets (h _ (describes_sample parts))
  rw [count_like, count_sample] at hle
  omega

/-! ## Too few bracketing characters -/

/-- The characters that open brackets or turn a set around. -/
def bracketing (c : Char) : Bool := c = '[' || c = '^'

theorem countP_escape {m : Char → Bool} (hm : m '\\' = false) (s : List Char) :
    (escape s).countP m = s.countP m := by
  induction s with
  | nil => rfl
  | cons c s ih =>
    have hc : List.countP m (if written c then ['\\', c] else [c]) = if m c then 1 else 0 := by
      split_ifs <;> simp [*]
    rw [escape_cons, List.countP_append, List.countP_cons, hc, ih, Nat.add_comm]

/-- The pattern adds no characters but its wildcards and backslashes. -/
theorem countP_like {m : Char → Bool} (hany : m '%' = false) (hone : m '_' = false)
    (hescape : m '\\' = false) (parts : List Part) :
    (parts.flatMap Part.like).countP m = (parts.flatMap Part.content).countP m := by
  induction parts with
  | nil => rfl
  | cons part parts ih =>
    have hpart : part.like.countP m = part.content.countP m := by
      cases part with
      | exactly s => exact countP_escape hescape s
      | any => simp [Part.like, Part.content, hany]
      | one => simp [Part.like, Part.content, hone]
    rw [List.flatMap_cons, List.flatMap_cons, List.countP_append, List.countP_append, hpart, ih]

theorem mem_of_mem_ranges {content : List Char} {p : Char × Char} (h : p ∈ ranges content) :
    p.1 ∈ content := by
  induction content using ranges.induct with
  | case1 first last rest ih =>
    rcases List.mem_cons.1 h with rfl | hrest
    · exact List.mem_cons_self
    · have hmem := ih hrest
      simp [hmem]
  | case2 c rest hne ih =>
    rw [ranges] at h
    · rcases List.mem_cons.1 h with rfl | hrest
      · exact List.mem_cons_self
      · exact List.mem_cons_of_mem _ (ih hrest)
    · exact hne
  | case3 => exact absurd h List.not_mem_nil

/-- Brackets that allow anything allow a character that is no more bracketing
than what they hold. -/
theorem exists_allows {content : List Char} {c : Char} (h : Allows content c) :
    ∃ d, Allows content d ∧ (bracketing d = true → 0 < content.countP bracketing) := by
  by_cases hturned : ∃ rest, content = '^' :: rest
  · obtain ⟨rest, rfl⟩ := hturned
    refine ⟨c, h, fun _ => ?_⟩
    exact List.countP_pos_iff.2 ⟨'^', List.mem_cons_self, rfl⟩
  · have hlisted : ∀ d, Allows content d ↔ Listed content d := by
      intro d
      unfold Allows
      split
      · next rest => exact absurd ⟨rest, rfl⟩ hturned
      · exact Iff.rfl
    -- the first character of a range is one that the brackets hold
    obtain ⟨p, hp, hfirst, hlast⟩ := (hlisted c).1 h
    refine ⟨p.1, (hlisted p.1).2 ⟨p, hp, Char.le_refl _, Char.le_trans hfirst hlast⟩, fun hmark => ?_⟩
    exact List.countP_pos_iff.2 ⟨p.1, mem_of_mem_ranges hp, hmark⟩

/-- The bracketing characters that the reading holds back. -/
def weight : State → ℕ
  | .plain => 0
  | .escaped => 1
  | .inSet content => content.countP bracketing + 1

/-- The rest of a pattern is matched by a subject with no more bracketing
characters than it has itself, and with fewer if it has brackets. -/
structure Lighter (r : Rules) (st : State) (text subject : List Char) : Prop where
  taken : Concatenates Token.Takes (tokensFrom r st text) subject
  le : subject.countP bracketing ≤ weight st + text.countP bracketing
  lt : 0 < weight st ∨ '[' ∈ text → subject.countP bracketing < weight st + text.countP bracketing

/-- A token in front adds its stretch to the subject. -/
theorem Lighter.cons {st st' : State} {c : Char} {token : Token} (stretch : List Char)
    (htokens : tokensFrom r st (c :: text) = token :: tokensFrom r st' text)
    (hstretch : token.Takes stretch)
    (hle : stretch.countP bracketing + weight st' ≤ weight st + [c].countP bracketing)
    (hlt : 0 < weight st ∨ c = '[' →
      stretch.countP bracketing + weight st' < weight st + [c].countP bracketing)
    (h : Lighter r st' text subject) : Lighter r st (c :: text) (stretch ++ subject) := by
  have hcount : (c :: text).countP bracketing = [c].countP bracketing + text.countP bracketing := by
    rw [← List.singleton_append, List.countP_append]
  have hrest := h.le
  refine ⟨htokens ▸ concatenates_cons.2 ⟨stretch, subject, hstretch, h.taken, rfl⟩, ?_,
    fun hopen => ?_⟩
  · rw [hcount, List.countP_append]
    omega
  · rw [hcount, List.countP_append]
    by_cases hfirst : 0 < weight st ∨ c = '['
    · have hstrict := hlt hfirst
      omega
    · have hmem : '[' ∈ text := by
        rcases hopen with hst | hmem
        · exact absurd (.inl hst) hfirst
        · exact (List.mem_cons.1 hmem).resolve_left fun hc => hfirst (.inr hc.symm)
      have hstrict := h.lt (.inr hmem)
      omega

/-- Behind a token: its stretch can be chosen so that it weighs no more than what
the reading went over, and less where that is in brackets. -/
theorem exists_lighter_token {st st' : State} {c : Char} {token : Token}
    (htokens : tokensFrom r st (c :: text) = token :: tokensFrom r st' text)
    (hlight : ∀ stretch, token.Takes stretch → ∃ stretch', token.Takes stretch' ∧
      stretch'.countP bracketing + weight st' ≤ weight st + [c].countP bracketing ∧
      (0 < weight st ∨ c = '[' →
        stretch'.countP bracketing + weight st' < weight st + [c].countP bracketing))
    (ih : (∃ subject, Concatenates Token.Takes (tokensFrom r st' text) subject) →
      ∃ subject, Lighter r st' text subject)
    (h : ∃ subject, Concatenates Token.Takes (tokensFrom r st (c :: text)) subject) :
    ∃ subject, Lighter r st (c :: text) subject := by
  obtain ⟨_, hsubject⟩ := h
  rw [htokens] at hsubject
  obtain ⟨stretch, rest, hstretch, hrest, -⟩ := concatenates_cons.1 hsubject
  obtain ⟨stretch', htakes, hle, hlt⟩ := hlight stretch hstretch
  obtain ⟨subject, hlighter⟩ := ih ⟨rest, hrest⟩
  exact ⟨_, hlighter.cons stretch' htokens htakes hle hlt⟩

/-- In brackets: the reading holds back what it goes over. -/
theorem exists_lighter_held {st st' : State} {c : Char}
    (htokens : tokensFrom r st (c :: text) = tokensFrom r st' text) (hopen : 0 < weight st')
    (hheld : weight st' + text.countP bracketing = weight st + (c :: text).countP bracketing)
    (ih : (∃ subject, Concatenates Token.Takes (tokensFrom r st' text) subject) →
      ∃ subject, Lighter r st' text subject)
    (h : ∃ subject, Concatenates Token.Takes (tokensFrom r st (c :: text)) subject) :
    ∃ subject, Lighter r st (c :: text) subject := by
  rw [htokens] at h
  obtain ⟨subject, hlighter⟩ := ih h
  have hlt := hlighter.lt (.inl hopen)
  rw [hheld] at hlt
  exact ⟨subject, htokens ▸ hlighter.taken, by omega, fun _ => hlt⟩

/-- **Brackets ask for fewer bracketing characters than they have.** What can be
matched at all is matched by such a subject. -/
theorem exists_lighter (hr : r.escape = none) (hsets : r.sets = true) {st : State}
    (h : ∃ subject, Concatenates Token.Takes (tokensFrom r st text) subject) :
    ∃ subject, Lighter r st text subject := by
  induction text generalizing st with
  | nil =>
    cases st with
    | plain => exact ⟨[], concatenates_nil.2 rfl, Nat.zero_le _, by simp [weight]⟩
    | escaped | inSet content =>
      obtain ⟨subject, hsubject⟩ := h
      obtain ⟨_, _, hbroken, -⟩ := concatenates_cons.1 hsubject
      exact absurd hbroken id
  | cons c text ih =>
    cases st with
    | plain =>
      by_cases hany : c = '%'
      · subst hany
        refine exists_lighter_token (tokensFrom_any hr text) (fun _ _ => ?_) ih h
        exact ⟨[], trivial, by decide⟩
      by_cases hone : c = '_'
      · subst hone
        refine exists_lighter_token (tokensFrom_one hr text) (fun _ _ => ?_) ih h
        exact ⟨['x'], ⟨'x', rfl⟩, by decide⟩
      by_cases hopen : c = '['
      · subst hopen
        have htokens : tokensFrom r .plain ('[' :: text) = tokensFrom r (.inSet []) text := by
          rw [tokensFrom, if_neg (escape_ne hr _), if_neg hany, if_neg hone, if_pos ⟨hsets, rfl⟩]
        have hheld : weight (.inSet []) + text.countP bracketing =
            weight .plain + ('[' :: text).countP bracketing := by
          rw [List.countP_cons_of_pos rfl]
          simp only [weight, List.countP_nil]
          omega
        exact exists_lighter_held htokens Nat.one_pos hheld ih h
      · refine exists_lighter_token (tokensFrom_literal hr hany hone (fun h => hopen h.2) text)
          (fun _ _ => ⟨[c], rfl, by simp only [weight]; omega, ?_⟩) ih h
        rintro (hweight | hc)
        · exact absurd hweight (Nat.lt_irrefl 0)
        · exact absurd hc hopen
    | escaped =>
      have htokens : tokensFrom r .escaped (c :: text) =
          .literal c :: tokensFrom r .plain text := rfl
      refine exists_lighter_token htokens (fun _ _ => ?_) ih h
      exact ⟨[c], rfl, by simp only [weight]; omega, fun _ => by simp only [weight]; omega⟩
    | inSet content =>
      by_cases hclose : c = ']'
      · subst hclose
        have htokens : tokensFrom r (.inSet content) (']' :: text) =
            .set content :: tokensFrom r .plain text := by
          rw [tokensFrom, if_pos rfl]
        refine exists_lighter_token htokens ?_ ih h
        rintro _ ⟨d, -, hd⟩
        obtain ⟨e, he, hmark⟩ := exists_allows hd
        have hheld : [e].countP bracketing ≤ content.countP bracketing := by
          by_cases hbracketing : bracketing e = true
          · have hpositive := hmark hbracketing
            rw [List.countP_singleton, if_pos hbracketing]
            omega
          · rw [List.countP_singleton, if_neg hbracketing]
            exact Nat.zero_le _
        exact ⟨[e], ⟨e, rfl, he⟩, by simp only [weight]; omega,
          fun _ => by simp only [weight]; omega⟩
      · have htokens : tokensFrom r (.inSet content) (c :: text) =
            tokensFrom r (.inSet (content ++ [c])) text := by
          rw [tokensFrom, if_neg hclose]
        have hheld : weight (.inSet (content ++ [c])) + text.countP bracketing =
            weight (.inSet content) + (c :: text).countP bracketing := by
          simp only [weight, List.countP_append, List.countP_cons, List.countP_nil]
          omega
        exact exists_lighter_held htokens (Nat.succ_pos _) hheld ih h

/-- **Brackets in a text do without a character that is asked for.** -/
theorem exists_matches_not_describes (hr : r.escape = none) (hsets : r.sets = true)
    (hopen : '[' ∈ parts.flatMap Part.like)
    (h : ∃ subject, Matches r (parts.flatMap Part.like) subject) :
    ∃ subject, Matches r (parts.flatMap Part.like) subject ∧ ¬ Describes parts subject := by
  obtain ⟨subject, hlighter⟩ := exists_lighter hr hsets h
  refine ⟨subject, hlighter.taken, fun hdescribes => ?_⟩
  have hlt := hlighter.lt (.inr hopen)
  have hle := countP_le_of_describes bracketing hdescribes
  rw [countP_like (by decide) (by decide) (by decide)] at hlt
  simp only [weight] at hlt
  omega

/-! ## Exactly the unmarked patterns -/

theorem mem_content_iff {c : Char} :
    c ∈ parts.flatMap Part.content ↔ ∃ s, .exactly s ∈ parts ∧ c ∈ s := by
  rw [List.mem_flatMap]
  constructor
  · rintro ⟨part, hpart, hc⟩
    cases part with
    | exactly s => exact ⟨s, hpart, hc⟩
    | any | one => exact absurd hc List.not_mem_nil
  · rintro ⟨s, hpart, hc⟩
    exact ⟨.exactly s, hpart, hc⟩

/-- A bracket in the text of a pattern comes from a text that was added. -/
theorem bracket_mem_like : '[' ∈ parts.flatMap Part.like ↔ '[' ∈ parts.flatMap Part.content := by
  have hcount : (parts.flatMap Part.like).count '[' = (parts.flatMap Part.content).count '[' :=
    countP_like (by decide) (by decide) (by decide) parts
  rw [← List.count_pos_iff, ← List.count_pos_iff, hcount]

theorem unmarked_iff : Unmarked r parts ↔
    (parts.flatMap Part.content).countP written = 0 ∧
      (r.sets = true → '[' ∉ parts.flatMap Part.like) := by
  rw [bracket_mem_like, List.countP_eq_zero]
  constructor
  · intro h
    refine ⟨fun c hc hwritten => ?_, fun hsets hopen => ?_⟩
    · obtain ⟨s, hs, hcs⟩ := mem_content_iff.1 hc
      exact h s hs c hcs (.inl hwritten)
    · obtain ⟨s, hs, hcs⟩ := mem_content_iff.1 hopen
      exact h s hs '[' hcs (.inr ⟨hsets, rfl⟩)
  · rintro ⟨hwritten, hopen⟩ s hs c hc hspecial
    have hmem : c ∈ parts.flatMap Part.content := mem_content_iff.2 ⟨s, hs, hc⟩
    rcases hspecial with hmark | ⟨hsets, rfl⟩
    · exact hwritten c hmem hmark
    · exact hopen hsets hmem

/-- **An engine without an escape character matches what the pattern describes
exactly if no text of the pattern holds a special character.** -/
theorem matches_like_iff_unmarked (hr : r.escape = none) :
    (∀ subject, Matches r (parts.flatMap Part.like) subject ↔ Describes parts subject) ↔
      Unmarked r parts := by
  constructor
  · intro h
    have hsets : r.sets = true → '[' ∉ parts.flatMap Part.like := by
      intro hsets hopen
      have hsome : ∃ subject, Matches r (parts.flatMap Part.like) subject :=
        ⟨_, (h _).2 (describes_sample parts)⟩
      obtain ⟨subject, hmatches, hnot⟩ := exists_matches_not_describes hr hsets hopen hsome
      exact hnot ((h subject).1 hmatches)
    exact unmarked_iff.2 ⟨countP_written_eq_zero hr hsets fun subject => (h subject).2, hsets⟩
  · intro h subject
    exact matches_like_of_readsBack fun part hpart => readsBack_of_unmarked hr h hpart

end Unescaped

end Pattern

end QueryLayer
