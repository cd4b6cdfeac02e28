import QueryLayer.Document.Filter
import QueryLayer.Proofs.Pattern.Regex

/-!
# Patterns and subjects of several lines

LIKE knows nothing of lines. A store that is given a regular expression without
options looks for it anywhere in the subject; a point takes no line break, and
one line break may stand behind the end (`Regex.Mode.plain`).

So the regular expression of a LIKE pattern is found where LIKE matches with
wildcards that take no line break, and also with a line break more at the end
(`finds_plain_iff`). On a subject of one line this is what LIKE says. But every
pattern has a subject of several lines that tells the two apart
(`exists_differs`): one with line breaks where the pattern has a wildcard for
any text, and one with a line break behind it where it has none.
-/

namespace QueryLayer

/-! ## Patterns that break off -/

namespace Like

/-- The pattern ends in an odd number of backslashes, so the last of them has no
character to stand before. -/
def BreaksOff (pattern : List Char) : Prop :=
  ∃ start n, start.getLast? ≠ some '\\' ∧ start ++ List.replicate (2 * n + 1) '\\' = pattern

/-- A character that is no backslash changes nothing about the end. -/
theorem breaksOff_cons {c : Char} (hc : c ≠ '\\') {pattern : List Char} :
    BreaksOff (c :: pattern) ↔ BreaksOff pattern := by
  constructor
  · rintro ⟨start, n, hstart, hpattern⟩
    cases start with
    | nil =>
      rw [List.nil_append, List.replicate_succ] at hpattern
      exact absurd (List.cons.inj hpattern).1.symm hc
    | cons d start =>
      refine ⟨start, n, fun hlast => hstart ?_, (List.cons.inj hpattern).2⟩
      rw [List.getLast?_cons, hlast]
      rfl
  · rintro ⟨start, n, hstart, rfl⟩
    refine ⟨c :: start, n, fun hlast => ?_, rfl⟩
    cases hend : start.getLast? with
    | none =>
      rw [List.getLast?_cons, hend] at hlast
      exact hc (Option.some.inj hlast)
    | some d =>
      rw [List.getLast?_cons, hend] at hlast
      exact hstart (hend.trans hlast)

/-- Nor does a backslash with its character. -/
theorem breaksOff_escaped {c : Char} {pattern : List Char} :
    BreaksOff ('\\' :: c :: pattern) ↔ BreaksOff pattern := by
  constructor
  · rintro ⟨start, n, hstart, hpattern⟩
    match start, hstart, hpattern with
    | [], _, hpattern =>
      -- two backslashes less
      cases n with
      | zero => simp at hpattern
      | succ n =>
        refine ⟨[], n, by simp, ?_⟩
        rw [Nat.mul_succ, List.nil_append, List.replicate_succ, List.replicate_succ] at hpattern
        exact (List.cons.inj (List.cons.inj hpattern).2).2
    | [d], hstart, hpattern =>
      obtain rfl := (List.cons.inj hpattern).1
      exact absurd rfl hstart
    | d :: d' :: start, hstart, hpattern =>
      refine ⟨start, n, fun hlast => hstart ?_, (List.cons.inj (List.cons.inj hpattern).2).2⟩
      rw [List.getLast?_cons, List.getLast?_cons, hlast]
      rfl
  · rintro ⟨start, n, hstart, rfl⟩
    by_cases hall : start = [] ∧ c = '\\'
    · obtain ⟨rfl, rfl⟩ := hall
      exact ⟨[], n + 1, by simp, by simp [Nat.mul_succ, List.replicate_succ]⟩
    · refine ⟨'\\' :: c :: start, n, fun hlast => ?_, rfl⟩
      rw [List.getLast?_cons, List.getLast?_cons] at hlast
      cases hend : start.getLast? with
      | none =>
        rw [hend] at hlast
        exact hall ⟨List.getLast?_eq_none_iff.1 hend, Option.some.inj hlast⟩
      | some d =>
        rw [hend] at hlast
        exact hstart (hend.trans hlast)

/-- A pattern breaks off exactly if LIKE finds its end missing. -/
theorem broken_mem_tokens_iff {pattern : List Char} :
    .broken ∈ tokens .standard pattern ↔ BreaksOff pattern := by
  rw [tokens]
  fun_induction Document.likeItems pattern with
  | case1 =>
    refine iff_of_false List.not_mem_nil ?_
    rintro ⟨start, n, -, hpattern⟩
    simp [List.replicate_succ] at hpattern
  | case2 => exact iff_of_true List.mem_cons_self ⟨[], 0, by simp, rfl⟩
  | case3 c cs ih =>
    have htokens : tokensFrom .standard .plain ('\\' :: c :: cs) =
        .literal c :: tokensFrom .standard .plain cs := rfl
    rw [htokens, breaksOff_escaped, ← ih]
    simp
  | case4 cs ih =>
    have htokens : tokensFrom .standard .plain ('%' :: cs) =
        .any :: tokensFrom .standard .plain cs := rfl
    rw [htokens, breaksOff_cons (by decide), ← ih]
    simp
  | case5 cs ih =>
    have htokens : tokensFrom .standard .plain ('_' :: cs) =
        .one :: tokensFrom .standard .plain cs := rfl
    rw [htokens, breaksOff_cons (by decide), ← ih]
    simp
  | case6 c cs hlast hescape hany hone ih =>
    have hplain : ¬ Pattern.written c = true := by
      rw [Pattern.written_iff]
      rintro (rfl | rfl | rfl)
      · exact hany rfl
      · exact hone rfl
      · cases cs with
        | nil => exact hlast rfl rfl
        | cons d cs => exact hescape d cs rfl rfl
    have hbackslash : c ≠ '\\' := fun hc => hplain (Pattern.written_iff.2 (.inr (.inr hc)))
    rw [Pattern.tokensFrom_standard_cons hplain, breaksOff_cons hbackslash, ← ih]
    simp

instance : DecidablePred BreaksOff := fun _ => decidable_of_iff _ broken_mem_tokens_iff

/-- The stretches that a token stands for where wildcards take no line break. -/
def Token.TakesInLine (token : Token) (stretch : List Char) : Prop :=
  match token with
  | .literal c => stretch = [c]
  | token => token.Takes stretch ∧ '\n' ∉ stretch

/-- The subject is matched by the pattern with wildcards that take no line break. -/
def MatchesInLines (pattern subject : List Char) : Prop :=
  Concatenates Token.TakesInLine (tokens .standard pattern) subject

/-- In a stretch of one line a token takes what it takes anywhere. -/
theorem Token.takesInLine_iff {token : Token} {stretch : List Char} (h : '\n' ∉ stretch) :
    token.TakesInLine stretch ↔ token.Takes stretch := by
  cases token with
  | literal c => exact Iff.rfl
  | any | one | set content | broken => exact and_iff_left h

/-- **On one line nothing is lost**: there are no line breaks to take. -/
theorem matchesInLines_iff {pattern subject : List Char} (h : '\n' ∉ subject) :
    MatchesInLines pattern subject ↔ Matches .standard pattern subject := by
  rw [MatchesInLines, Matches]
  generalize tokens .standard pattern = tokens
  induction tokens generalizing subject with
  | nil => rw [concatenates_nil, concatenates_nil]
  | cons token tokens ih =>
    rw [concatenates_cons, concatenates_cons]
    refine exists_congr fun stretch => exists_congr fun rest => ?_
    constructor
    · rintro ⟨htoken, htokens, rfl⟩
      obtain ⟨hstretch, hrest⟩ := not_or.1 (mt List.mem_append.2 h)
      exact ⟨(Token.takesInLine_iff hstretch).1 htoken, (ih hrest).1 htokens, rfl⟩
    · rintro ⟨htoken, htokens, rfl⟩
      obtain ⟨hstretch, hrest⟩ := not_or.1 (mt List.mem_append.2 h)
      exact ⟨(Token.takesInLine_iff hstretch).2 htoken, (ih hrest).2 htokens, rfl⟩

end Like

/-! ## Finding a regular expression -/

namespace Regex

/-- A point takes no line break, and one may stand behind the end. -/
def Mode.plain : Mode := ⟨(· ≠ '\n'), fun after => after = [] ∨ after = ['\n']⟩

/-- The regular expression stands for a stretch somewhere in the subject. -/
def Finds (m : Mode) (text subject : List Char) : Prop :=
  ∃ nodes, read text = some nodes ∧
    ∃ before span after, before ++ span ++ after = subject ∧ Spans m nodes before span after

end Regex

namespace Document

open Regex

variable {m : Mode} {pattern subject : List Char} {items : List LikeItem}

/-- The regular expression of a LIKE pattern is found from the start of the
subject up to what may stand behind its end. -/
theorem finds_likeRegex : Regex.Finds m (likeRegex pattern) subject ↔
    ∃ span after, span ++ after = subject ∧
      Concatenates (LikeItem.Takes m) (likeItems pattern) span ∧ m.final after := by
  rw [Regex.Finds, read_likeRegex]
  simp only [Option.some.injEq, exists_eq_left']
  constructor
  · rintro ⟨before, span, after, hsubject, stretch, rest, rfl, ⟨rfl, rfl⟩, hspans⟩
    exact ⟨rest, after, hsubject, spans_items.1 hspans⟩
  · rintro ⟨span, after, hsubject, hitems⟩
    exact ⟨[], span, after, hsubject, [], span, rfl, ⟨rfl, rfl⟩, spans_items.2 hitems⟩

theorem LikeItem.takesInLine_token (item : LikeItem) (stretch : List Char) :
    item.token.TakesInLine stretch ↔ item.Takes .plain stretch := by
  cases item with
  | literal c => exact Iff.rfl
  | any =>
    have hbreak : '\n' ∉ stretch ↔ ∀ c ∈ stretch, c ≠ '\n' :=
      ⟨fun h c hc hnewline => h (hnewline ▸ hc), fun h hmem => h _ hmem rfl⟩
    exact (and_iff_right trivial).trans hbreak
  | one =>
    constructor
    · rintro ⟨⟨c, rfl⟩, hbreak⟩
      exact ⟨c, rfl, fun hc => hbreak (hc ▸ List.mem_singleton_self c)⟩
    · rintro ⟨c, rfl, hc⟩
      exact ⟨⟨c, rfl⟩, fun hmem => hc (List.mem_singleton.1 hmem).symm⟩

/-- What the items of a pattern take, where points take no line break. -/
theorem matchesInLines_iff_items (h : ¬ Like.BreaksOff pattern) :
    Like.MatchesInLines pattern subject ↔
      Concatenates (LikeItem.Takes .plain) (likeItems pattern) subject := by
  rw [Like.MatchesInLines, tokens_eq_map_token (mt Like.broken_mem_tokens_iff.1 h),
    concatenates_map LikeItem.takesInLine_token]

/-- And where they take every character. -/
theorem matches_iff_items (h : ¬ Like.BreaksOff pattern) :
    Like.Matches .standard pattern subject ↔
      Concatenates (LikeItem.Takes .whole) (likeItems pattern) subject := by
  rw [Like.Matches, tokens_eq_map_token (mt Like.broken_mem_tokens_iff.1 h),
    concatenates_map LikeItem.takes_token]

/-- **What the store finds**: the subject, or the subject without a line break
at its end, is matched with wildcards that take no line break. -/
theorem finds_plain_iff (h : ¬ Like.BreaksOff pattern) :
    Regex.Finds .plain (likeRegex pattern) subject ↔
      Like.MatchesInLines pattern subject ∨
        ∃ start, start ++ ['\n'] = subject ∧ Like.MatchesInLines pattern start := by
  simp only [finds_likeRegex, matchesInLines_iff_items h]
  constructor
  · rintro ⟨span, after, hsubject, hitems, rfl | rfl⟩
    · rw [List.append_nil] at hsubject
      exact .inl (hsubject ▸ hitems)
    · exact .inr ⟨span, hsubject, hitems⟩
  · rintro (hitems | ⟨start, hsubject, hitems⟩)
    · exact ⟨subject, [], List.append_nil _, hitems, .inl rfl⟩
    · exact ⟨start, ['\n'], hsubject, hitems, .inr rfl⟩

/-- On a subject of one line this is what LIKE says. -/
theorem finds_plain_iff_matches (h : ¬ Like.BreaksOff pattern) (hline : '\n' ∉ subject) :
    Regex.Finds .plain (likeRegex pattern) subject ↔ Like.Matches .standard pattern subject := by
  rw [finds_plain_iff h, Like.matchesInLines_iff hline]
  refine or_iff_left ?_
  rintro ⟨start, rfl, -⟩
  exact hline (List.mem_append_right _ (List.mem_singleton_self _))

/-! ## Subjects of several lines -/

/-- A stretch for the item, of several lines where any text will do. -/
def LikeItem.lines : LikeItem → List Char
  | .any => ['\n', '\n']
  | .one => ['x']
  | .literal c => [c]

theorem concatenates_flatMap_self {takes : LikeItem → List Char → Prop} {f : LikeItem → List Char}
    (h : ∀ item ∈ items, takes item (f item)) : Concatenates takes items (items.flatMap f) :=
  ⟨items.map f, List.forall₂_map_right_iff.2 (List.forall₂_same.2 h), List.flatMap_def.symm⟩

/-- A span without line breaks for wildcards has those that the pattern asks for. -/
theorem count_newline_of_takes (h : Concatenates (LikeItem.Takes .plain) items subject) :
    subject.count '\n' = items.count (.literal '\n') := by
  induction items generalizing subject with
  | nil => rw [concatenates_nil.1 h, List.count_nil, List.count_nil]
  | cons item items ih =>
    obtain ⟨stretch, rest, hstretch, hrest, rfl⟩ := concatenates_cons.1 h
    have hitem : stretch.count '\n' = [item].count (.literal '\n') := by
      cases item with
      | any =>
        have hnone : '\n' ∉ stretch := fun hmem => hstretch _ hmem rfl
        rw [List.count_eq_zero_of_not_mem hnone]
        rfl
      | one =>
        obtain ⟨c, rfl, hc⟩ := hstretch
        rw [List.count_eq_zero_of_not_mem fun hmem => hc (List.mem_singleton.1 hmem).symm]
        rfl
      | literal c =>
        obtain rfl : stretch = [c] := hstretch
        by_cases hc : c = '\n'
        · subst hc
          rfl
        · rw [List.count_singleton, List.count_singleton]
          simp [hc]
    rw [List.count_append, hitem, ih hrest, ← List.count_append, List.singleton_append]

/-- A subject of several lines has two more for each wildcard for any text. -/
theorem count_newline_lines (items : List LikeItem) :
    (items.flatMap LikeItem.lines).count '\n' =
      items.count (.literal '\n') + 2 * items.count .any := by
  induction items with
  | nil => rfl
  | cons item items ih =>
    have hitem : item.lines.count '\n' = [item].count (.literal '\n') + 2 * [item].count .any := by
      cases item with
      | any | one => rfl
      | literal c =>
        rw [LikeItem.lines, List.count_singleton, List.count_singleton]
        by_cases hc : c = '\n' <;> simp [hc]
    have hcons : ∀ x, (item :: items).count x = [item].count x + items.count x := fun x => by
      rw [← List.count_append, List.singleton_append]
    rw [List.flatMap_cons, List.count_append, hitem, ih, hcons, hcons]
    omega

/-- Without a wildcard for any text, a span has a character for each item. -/
theorem length_of_takes (hany : .any ∉ items) (h : Concatenates (LikeItem.Takes m) items subject) :
    subject.length = items.length := by
  induction items generalizing subject with
  | nil => rw [concatenates_nil.1 h, List.length_nil, List.length_nil]
  | cons item items ih =>
    obtain ⟨stretch, rest, hstretch, hrest, rfl⟩ := concatenates_cons.1 h
    have hitem : stretch.length = 1 := by
      cases item with
      | any => exact absurd List.mem_cons_self hany
      | one =>
        obtain ⟨c, rfl, -⟩ := hstretch
        rfl
      | literal c =>
        obtain rfl : stretch = [c] := hstretch
        rfl
    rw [List.length_append, hitem, ih (fun hmem => hany (List.mem_cons_of_mem _ hmem)) hrest,
      List.length_cons, Nat.add_comm]

/-- **Every pattern has a subject that tells the two apart.** -/
theorem exists_differs (h : ¬ Like.BreaksOff pattern) :
    ∃ subject, ¬ (Regex.Finds .plain (likeRegex pattern) subject ↔
      Like.Matches .standard pattern subject) := by
  simp only [finds_likeRegex, matches_iff_items h]
  generalize likeItems pattern = items
  by_cases hany : .any ∈ items
  · -- the line breaks of the wildcards are too many for the regular expression
    refine ⟨items.flatMap LikeItem.lines, fun hiff => ?_⟩
    have hwhole : Concatenates (LikeItem.Takes .whole) items (items.flatMap LikeItem.lines) := by
      refine concatenates_flatMap_self fun item _ => ?_
      cases item with
      | any => exact fun _ _ => trivial
      | one => exact ⟨'x', rfl, trivial⟩
      | literal c => rfl
    obtain ⟨span, after, hsubject, hspan, hafter⟩ := hiff.2 hwhole
    have hcount := congrArg (List.count '\n') hsubject
    rw [List.count_append, count_newline_of_takes hspan, count_newline_lines] at hcount
    have hpositive : 0 < items.count .any := List.count_pos_iff.2 hany
    have hend : after.count '\n' ≤ 1 := by
      rcases hafter with rfl | rfl <;> decide
    omega
  · -- the line break at the end is one character too many for LIKE
    refine ⟨items.flatMap LikeItem.lines ++ ['\n'], fun hiff => ?_⟩
    have hplain : Concatenates (LikeItem.Takes .plain) items (items.flatMap LikeItem.lines) := by
      refine concatenates_flatMap_self fun item hitem => ?_
      cases item with
      | any => exact absurd hitem hany
      | one => exact ⟨'x', rfl, (by decide : 'x' ≠ '\n')⟩
      | literal c => rfl
    have hlength := length_of_takes hany (hiff.1 ⟨_, ['\n'], rfl, hplain, .inr rfl⟩)
    rw [List.length_append, length_of_takes hany hplain] at hlength
    simp at hlength

/-- On a note of two lines LIKE and the store do not agree. -/
theorem finds_secondLine_ne :
    ¬ ∀ pattern subject : List Char, ¬ Like.BreaksOff pattern →
      (Regex.Finds .plain (likeRegex pattern) subject ↔ Like.Matches .standard pattern subject) := by
  intro h
  have hmatches : Like.Matches .standard ['%'] ['a', '\n', 'b'] :=
    concatenates_cons.2 ⟨['a', '\n', 'b'], [], trivial, concatenates_nil.2 rfl, rfl⟩
  have hfinds := (h ['%'] ['a', '\n', 'b'] (by decide)).2 hmatches
  rw [finds_plain_iff (by decide)] at hfinds
  have hline : ∀ subject, Like.MatchesInLines ['%'] subject → '\n' ∉ subject := by
    intro subject hsubject
    obtain ⟨stretch, rest, hstretch, hrest, rfl⟩ := concatenates_cons.1 hsubject
    rw [concatenates_nil.1 hrest, List.append_nil]
    exact hstretch.2
  rcases hfinds with hwhole | ⟨start, hstart, -⟩
  · exact hline _ hwhole (by decide)
  · have hlast := congrArg List.getLast? hstart
    rw [List.getLast?_concat] at hlast
    exact absurd hlast (by decide)

/-- **LIKE in the store is LIKE on one line.** A LIKE test is written as a regular
expression without options. Unless its pattern breaks off, the store finds it in
the subjects that LIKE matches with wildcards that take no line break, and in
those with a line break behind them. On every subject of one line this is LIKE,
and for every pattern it is not on some other subject. -/
theorem like_in_lines {pattern : String} (h : ¬ Like.BreaksOff pattern.toList) :
    criterionJson (.like (.text pattern)) =
      .object [("$regex", .string (String.ofList (likeRegex pattern.toList)))] ∧
    (∀ subject, Regex.Finds .plain (likeRegex pattern.toList) subject ↔
      Like.MatchesInLines pattern.toList subject ∨
        ∃ start, start ++ ['\n'] = subject ∧ Like.MatchesInLines pattern.toList start) ∧
    (∀ subject, '\n' ∉ subject → (Regex.Finds .plain (likeRegex pattern.toList) subject ↔
      Like.Matches .standard pattern.toList subject)) ∧
    ∃ subject, ¬ (Regex.Finds .plain (likeRegex pattern.toList) subject ↔
      Like.Matches .standard pattern.toList subject) :=
  ⟨rfl, fun _ => finds_plain_iff h, fun _ => finds_plain_iff_matches h, exists_differs h⟩

theorem like_in_lines_discount :
    ¬ Like.BreaksOff "50\\% off\\\\".toList ∧
    criterionJson (.like (.text "50\\% off\\\\")) = .object [("$regex", .string "^50% off\\\\$")] ∧
    (Regex.Finds .plain "^50% off\\\\$".toList "50% off\\".toList ↔
      Like.Matches .standard "50\\% off\\\\".toList "50% off\\".toList) := by
  have hends : ¬ Like.BreaksOff "50\\% off\\\\".toList := by decide
  have hregex : likeRegex "50\\% off\\\\".toList = "^50% off\\\\$".toList := by decide
  obtain ⟨hjson, -, hline, -⟩ := like_in_lines hends
  rw [hregex] at hjson hline
  exact ⟨hends, hjson, hline _ (by decide)⟩

end Document

end QueryLayer
