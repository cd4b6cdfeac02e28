import QueryLayer.Json.Lexer
import Mathlib.Data.List.Chain
import Mathlib.Data.List.TakeWhile

/-!
# Tokens read back from their text

On every list of exact tokens in which no two atoms touch, the lexer undoes
the writer (`run_write`). What it knows between two tokens is `HasRead`: the
text may end here, and a character that continues neither a word nor a numeral
begins the next token. A token that is no atom leads from any such state to a
state between two tokens, and an atom leads from there into the middle of a
run. The tokens of a value never put two atoms side by side, so the text of
every exact value reads back as its tokens (`run_write_tokens`).
-/

namespace QueryLayer

namespace Json

/-! ## Numerals -/

namespace Numeral

theorem isDigit_of_mem_digits (n : Nat) : ∀ c ∈ Nat.toDigits 10 n, c.isDigit = true :=
  fun _ => Nat.isDigit_of_mem_toDigits (by decide) (by decide)

/-- The text of an integer holds digits and perhaps a minus. -/
theorem mem_writeInt (n : Int) : ∀ c ∈ writeInt n, c.isDigit = true ∨ c = '-' := by
  intro c hc
  unfold writeInt at hc
  split at hc
  · rcases List.mem_cons.1 hc with rfl | hc
    · exact .inr rfl
    · exact .inl (isDigit_of_mem_digits _ c hc)
  · exact .inl (isDigit_of_mem_digits _ c hc)

/-- A positive number has no superfluous zero. -/
theorem head?_toDigits_ne_zero (n : Nat) (hn : 0 < n) :
    (Nat.toDigits 10 n).head? ≠ some '0' := by
  induction n using Nat.strongRecOn with
  | _ n ih =>
    rcases Nat.lt_or_ge n 10 with hlt | hge
    · have hdigit : ∀ k < 10, 0 < k → Nat.digitChar k ≠ '0' := by decide
      rw [Nat.toDigits_of_lt_base hlt]
      simpa using hdigit n hlt hn
    · -- the first digit is the first digit of the tens
      have htens : (Nat.toDigits 10 (n / 10)).head? ≠ some '0' := ih (n / 10) (by omega) (by omega)
      rw [Nat.toDigits_of_base_le (by decide) hge,
        List.head?_append_of_ne_nil _ Nat.toDigits_ne_nil]
      exact htens

theorem readSize_toDigits (negative : Bool) (n : Nat) :
    readSize negative (Nat.toDigits 10 n) = some ⟨negative, Nat.toDigits 10 n, none, none⟩ := by
  have hdigits := isDigit_of_mem_digits n
  have hzero : ((Nat.toDigits 10 n).head? == some '0' &&
      (Nat.toDigits 10 n).length != 1) = false := by
    rcases Nat.eq_zero_or_pos n with rfl | hn
    · rfl
    · simp [head?_toDigits_ne_zero n hn]
  simp [readSize, List.takeWhile_eq_self_iff.2 hdigits, List.dropWhile_eq_nil_iff.2 hdigits, hzero,
    readTail]

/-- The text of an integer is a numeral with nothing behind its digits. -/
theorem read_writeInt (n : Int) :
    read (writeInt n) = some ⟨decide (n < 0), Nat.toDigits 10 n.natAbs, none, none⟩ := by
  rcases Int.lt_or_le n 0 with hn | hn
  · simp only [writeInt, hn, if_true, read, decide_true]
    exact readSize_toDigits true n.natAbs
  · have hsign : (Nat.toDigits 10 n.natAbs).head? ≠ some '-' := by
      intro hhead
      have hminus := isDigit_of_mem_digits n.natAbs '-' (List.mem_of_mem_head? hhead)
      exact absurd hminus (by decide)
    have hread : read (Nat.toDigits 10 n.natAbs) = readSize false (Nat.toDigits 10 n.natAbs) := by
      unfold read
      split
      · next heq => simp [heq] at hsign
      · rfl
    simp only [writeInt, Int.not_lt.2 hn, if_false, hread, decide_false]
    exact readSize_toDigits false n.natAbs

end Numeral

/-! ## Exact tokens and atoms -/

namespace Token

/-- The token can be told from its text. Integers are kept as long as they fit
64 bits, signed or unsigned. -/
def IsExact : Token → Prop
  | .int n => Int64.minValue.toInt ≤ n ∧ n ≤ (Numeral.maxSignificand : Int)
  | .float _ | .brokenText | .outOfRange => False
  | _ => True

/-- The token is written as a word or a numeral, whose end shows only in what
follows. -/
def isAtom : Token → Bool
  | .null | .bool _ | .int _ | .float _ | .brokenText | .outOfRange => true
  | _ => false

end Token

theorem Numeral.token_writeInt {n : Int} (hn : (Token.int n).IsExact) :
    (Numeral.read (writeInt n)).map Numeral.token = some (.int n) := by
  obtain ⟨hlow, hhigh⟩ := hn
  have hvalue : Decimal.digitsValue (Nat.toDigits 10 n.natAbs) = n.natAbs :=
    Nat.ofDigitChars_ten_toDigits
  rw [Numeral.read_writeInt, Option.map_some]
  simp only [Numeral.token, Numeral.isInteger, hvalue, Option.isNone_none, Bool.and_self,
    Bool.true_and]
  rcases Int.lt_or_le n 0 with hneg | hpos
  · have hsize : -(n.natAbs : Int) = n := by omega
    have hlarge : 0 < n.natAbs := by omega
    simp only [hneg, hsize, hlarge, hlow, decide_true, Bool.not_true, Bool.false_and, Bool.and_self,
      Bool.false_eq_true, if_false, if_true]
  · have hsize : (n.natAbs : Int) = n := by omega
    have hsmall : n.natAbs ≤ Numeral.maxSignificand := by omega
    simp [Int.not_lt.2 hpos, hsize, hsmall]

namespace Lexer

variable {s : State} {ts : List Token} {t : Token}

/-! ## Strings -/

theorem hexValue_digitChar (n : Nat) (hn : n < 16) : hexValue (Nat.digitChar n) = some n := by
  revert n
  decide

/-- The characters with an escape of one letter. -/
def lettered : List Char := ['"', '\\', '\x08', '\x0c', '\n', '\r', '\t']

theorem escape_of_notMem_lettered {c : Char} (hc : c ∉ lettered) :
    escape c = if c.toNat < 0x20 then
      ['\\', 'u', '0', '0', Nat.digitChar (c.toNat / 16), Nat.digitChar (c.toNat % 16)]
    else [c] := by
  simp only [lettered, List.mem_cons, List.not_mem_nil, or_false, not_or] at hc
  simp [escape, hc]

/-- A control character is the code unit of its number. -/
theorem codePiece_control {c : Char} (hc : c.toNat < 0x20) :
    codePiece [c.toNat % 16, c.toNat / 16, 0, 0] = .char c := by
  have hunit : [c.toNat % 16, c.toNat / 16, 0, 0].foldr (fun d n => n * 16 + d) 0 = c.toNat := by
    simp only [List.foldr_cons, List.foldr_nil]
    omega
  simp only [codePiece, hunit, Char.ofNat_toNat]
  rw [if_neg (by omega)]

/-- **A character inside a string** is read back from its escape. -/
theorem foldlM_escape (run : List Piece) (ts : List Token) (c : Char) :
    (escape c).foldlM step ⟨.string run, ts⟩ = some ⟨.string (.char c :: run), ts⟩ := by
  by_cases hletter : c ∈ lettered
  · simp only [lettered, List.mem_cons, List.not_mem_nil, or_false] at hletter
    rcases hletter with rfl | rfl | rfl | rfl | rfl | rfl | rfl <;> rfl
  · rw [escape_of_notMem_lettered hletter]
    split
    · next hcontrol =>
      have hhigh := hexValue_digitChar (c.toNat / 16) (by omega)
      have hlow := hexValue_digitChar (c.toNat % 16) (by omega)
      have hzero : hexValue '0' = some 0 := by decide
      simp [step, hhigh, hlow, hzero, codePiece_control hcontrol]
    · next hcontrol =>
      -- the character stands for itself, being neither a quote nor a backslash
      simp only [lettered, List.mem_cons, not_or] at hletter
      simp [step, hletter.1, hletter.2.1, hcontrol]

theorem foldlM_flatMap_escape (cs : List Char) (run : List Piece) (ts : List Token) :
    (cs.flatMap escape).foldlM step ⟨.string run, ts⟩ =
      some ⟨.string ((cs.map .char).reverse ++ run), ts⟩ := by
  induction cs generalizing run with
  | nil => rfl
  | cons c cs ih =>
    rw [List.flatMap_cons, List.foldlM_append, foldlM_escape]
    simpa using ih (.char c :: run)

theorem joinHalves_map_char (cs : List Char) : joinHalves (cs.map .char) = some cs := by
  induction cs with
  | nil => rfl
  | cons c cs ih => simp [joinHalves, ih]

theorem stringToken_reverse_map_char (s : String) :
    stringToken (s.toList.map .char).reverse = .text s := by
  simp [stringToken, joinHalves_map_char]

/-! ## One token -/

/-- The state after the tokens `ts`, the last one first: the text may end here,
and a character that continues neither a word nor a numeral begins the next
token. -/
structure HasRead (s : State) (ts : List Token) : Prop where
  finish : s.finish = some ts.reverse
  begin : ∀ c, isWordChar c = false → isNumeralChar c = false → step s c = beginToken ts c

theorem hasRead_between (ts : List Token) : HasRead ⟨.between, ts⟩ ts :=
  ⟨rfl, fun _ _ _ => rfl⟩

/-- **A token that is no atom** is read behind anything, and its end is seen. -/
theorem HasRead.foldlM_write (hs : HasRead s ts) (ht : t.isAtom = false) :
    t.write.foldlM step s = some ⟨.between, t :: ts⟩ := by
  cases t with
  | openArray | closeArray | openObject | closeObject | comma | colon =>
    rw [Token.write, List.foldlM_cons, hs.begin _ (by decide) (by decide)]
    rfl
  | text x =>
    rw [Token.write, writeString, List.foldlM_cons, hs.begin _ (by decide) (by decide),
      show beginToken ts '"' = some ⟨.string [], ts⟩ from rfl, Option.bind_eq_bind,
      Option.bind_some, List.foldlM_append, foldlM_flatMap_escape]
    simp [step, stringToken_reverse_map_char]
  | null | bool | int | float | brokenText | outOfRange => simp [Token.isAtom] at ht

/-- A word in the middle of its run. -/
theorem hasRead_word {run : List Char} (h : wordToken run = some t) :
    HasRead ⟨.word run, ts⟩ (t :: ts) where
  finish := by simp [State.finish, h]
  begin c hword _ := by simp [step, hword, h]

/-- A numeral in the middle of its run. -/
theorem hasRead_numeral {run : List Char}
    (h : (Numeral.read run.reverse).map Numeral.token = some t) :
    HasRead ⟨.numeral run, ts⟩ (t :: ts) := by
  obtain ⟨n, hn, rfl⟩ := Option.map_eq_some_iff.1 h
  exact ⟨by simp [State.finish, hn], fun c _ hnumeral => by simp [step, hnumeral, hn]⟩

theorem foldlM_numeral {cs : List Char} (hcs : ∀ c ∈ cs, isNumeralChar c = true) (run : List Char)
    (ts : List Token) :
    cs.foldlM step ⟨.numeral run, ts⟩ = some ⟨.numeral (cs.reverse ++ run), ts⟩ := by
  induction cs generalizing run with
  | nil => rfl
  | cons c cs ih =>
    have hc : isNumeralChar c = true := hcs c (by simp)
    have hrest := ih (fun d hd => hcs d (by simp [hd])) (c :: run)
    simpa [step, hc] using hrest

/-- A digit or a minus begins a numeral. -/
theorem beginToken_numeral {c : Char} (hc : c.isDigit = true ∨ c = '-') :
    beginToken ts c = some ⟨.numeral [c], ts⟩ := by
  have hmark : ∀ d : Char, d.isDigit = false → d ≠ '-' → c ≠ d := by
    rintro d hdigit hminus rfl
    exact hc.elim (fun h => by simp [h] at hdigit) hminus
  have hspace : isSpace c = false := by
    simp [isSpace, hmark ' ' rfl (by decide), hmark '\t' rfl (by decide),
      hmark '\n' rfl (by decide), hmark '\r' rfl (by decide)]
  simp [beginToken, hspace, hmark '"' rfl (by decide), hc]

/-- The text of an integer is one run of a numeral. -/
theorem foldlM_writeInt (n : Int) (ts : List Token) :
    (writeInt n).foldlM step ⟨.between, ts⟩ = some ⟨.numeral (writeInt n).reverse, ts⟩ := by
  have hne : writeInt n ≠ [] := by
    unfold writeInt
    split <;> simp
  obtain ⟨c, cs, hcs⟩ := List.exists_cons_of_ne_nil hne
  have hmem : ∀ d ∈ c :: cs, d.isDigit = true ∨ d = '-' := hcs ▸ Numeral.mem_writeInt n
  have hbegin : beginToken ts c = some ⟨.numeral [c], ts⟩ := beginToken_numeral (hmem c (by simp))
  have hrest : ∀ d ∈ cs, isNumeralChar d = true := by
    intro d hd
    rcases hmem d (by simp [hd]) with h | rfl
    · simp [isNumeralChar, h]
    · rfl
  rw [hcs]
  simpa [step, hbegin] using foldlM_numeral hrest [c] ts

/-- **An atom** is read between two tokens, and its end is still open. -/
theorem exists_foldlM_write_atom (hexact : t.IsExact) (hatom : t.isAtom = true) (ts : List Token) :
    ∃ s, t.write.foldlM step ⟨.between, ts⟩ = some s ∧ HasRead s (t :: ts) := by
  cases t with
  | null => exact ⟨⟨.word ['l', 'l', 'u', 'n'], ts⟩, rfl, hasRead_word rfl⟩
  | bool b =>
    cases b with
    | true => exact ⟨⟨.word ['e', 'u', 'r', 't'], ts⟩, rfl, hasRead_word rfl⟩
    | false => exact ⟨⟨.word ['e', 's', 'l', 'a', 'f'], ts⟩, rfl, hasRead_word rfl⟩
  | int n =>
    refine ⟨_, foldlM_writeInt n ts, hasRead_numeral ?_⟩
    rw [List.reverse_reverse]
    exact Numeral.token_writeInt hexact
  | float | brokenText | outOfRange => exact absurd hexact (by simp [Token.IsExact])
  | _ => simp [Token.isAtom] at hatom

/-! ## Lists of tokens -/

/-- The second token may follow the first: two atoms would run together. -/
def Parted (t u : Token) : Prop := t.isAtom = true → u.isAtom = false

/-- The run over exact tokens behind others. An atom may come first only where
the lexer stands between two tokens. -/
theorem exists_foldlM_write {us : List Token} (hexact : ∀ u ∈ us, u.IsExact)
    (hparted : us.IsChain Parted) (hs : HasRead s ts)
    (hfirst : ∀ u ∈ us.head?, u.isAtom = true → s = ⟨.between, ts⟩) :
    ∃ s', (us.flatMap Token.write).foldlM step s = some s' ∧ HasRead s' (us.reverse ++ ts) := by
  induction us generalizing s ts with
  | nil => exact ⟨s, rfl, by simpa using hs⟩
  | cons u us ih =>
    -- only an atom leaves the lexer inside a run, and no atom follows an atom
    have hrest : ∀ v ∈ us, v.IsExact := fun v hv => hexact v (by simp [hv])
    obtain ⟨hnext, hparted⟩ := List.isChain_cons.1 hparted
    obtain ⟨s₁, hu, hs₁, hopen⟩ : ∃ s₁, u.write.foldlM step s = some s₁ ∧ HasRead s₁ (u :: ts) ∧
        (u.isAtom = false → s₁ = ⟨.between, u :: ts⟩) := by
      cases hatom : u.isAtom with
      | false => exact ⟨_, hs.foldlM_write hatom, hasRead_between _, fun _ => rfl⟩
      | true =>
        obtain rfl := hfirst u (by simp) hatom
        obtain ⟨s₁, hu, hs₁⟩ := exists_foldlM_write_atom (hexact u (by simp)) hatom ts
        exact ⟨s₁, hu, hs₁, fun h => by simp at h⟩
    have hfirst' : ∀ v ∈ us.head?, v.isAtom = true → s₁ = ⟨.between, u :: ts⟩ := by
      intro v hv hatom
      refine hopen (Bool.eq_false_iff.2 fun hu => ?_)
      exact absurd hatom (by simp [hnext v hv hu])
    obtain ⟨s', hus, hs'⟩ := ih hrest hparted hs₁ hfirst'
    refine ⟨s', ?_, by simpa using hs'⟩
    rw [List.flatMap_cons, List.foldlM_append, hu]
    exact hus

/-- **The lexer undoes the writer** on exact tokens, as long as no two atoms
touch. -/
theorem run_write {us : List Token} (hexact : ∀ u ∈ us, u.IsExact) (hparted : us.IsChain Parted) :
    run (us.flatMap Token.write) = some us := by
  obtain ⟨s, hfold, hs⟩ :=
    exists_foldlM_write hexact hparted (hasRead_between []) (fun _ _ _ => rfl)
  rw [run, State.start, hfold, Option.bind_some, hs.finish]
  simp

end Lexer

/-! ## The tokens of a value -/

open Lexer

theorem isAtom_head?_tokensItems (js : List Json) :
    ∀ t ∈ (tokensItems js).head?, t.isAtom = false := by
  cases js <;> simp [tokensItems, Token.isAtom]

theorem isAtom_head?_tokensMembers (ms : List (String × Json)) :
    ∀ t ∈ (tokensMembers ms).head?, t.isAtom = false := by
  cases ms <;> simp [tokensMembers, Token.isAtom]

/-- What begins with no atom may follow everything. -/
theorem isChain_parted_append {us vs : List Token} (hus : us.IsChain Parted)
    (hvs : vs.IsChain Parted) (h : ∀ t ∈ vs.head?, t.isAtom = false) : (us ++ vs).IsChain Parted :=
  List.isChain_append.2 ⟨hus, hvs, fun _ _ v hv _ => h v hv⟩

/-- Behind no atom everything may follow. -/
theorem isChain_parted_cons {t : Token} {us : List Token} (ht : t.isAtom = false)
    (hus : us.IsChain Parted) : (t :: us).IsChain Parted :=
  List.isChain_cons.2 ⟨fun _ _ h => by simp [ht] at h, hus⟩

mutual

/-- **The tokens of a value put no two atoms side by side.** -/
theorem isChain_tokens : ∀ j : Json, j.tokens.IsChain Parted
  | .null | .bool _ | .int _ | .float _ | .string _ | .broken => by simp [tokens]
  | .array [] => isChain_parted_cons rfl (by simp)
  | .array (j :: js) =>
    isChain_parted_cons rfl
      (isChain_parted_append (isChain_tokens j) (isChain_tokensItems js)
        (isAtom_head?_tokensItems js))
  | .object [] => isChain_parted_cons rfl (by simp)
  | .object ((_, j) :: ms) =>
    isChain_parted_cons rfl <| isChain_parted_cons rfl <| isChain_parted_cons rfl <|
      isChain_parted_append (isChain_tokens j) (isChain_tokensMembers ms)
        (isAtom_head?_tokensMembers ms)

theorem isChain_tokensItems : ∀ js : List Json, (tokensItems js).IsChain Parted
  | [] => by simp [tokensItems]
  | j :: js =>
    isChain_parted_cons rfl
      (isChain_parted_append (isChain_tokens j) (isChain_tokensItems js)
        (isAtom_head?_tokensItems js))

theorem isChain_tokensMembers : ∀ ms : List (String × Json), (tokensMembers ms).IsChain Parted
  | [] => by simp [tokensMembers]
  | (_, j) :: ms =>
    isChain_parted_cons rfl <| isChain_parted_cons rfl <| isChain_parted_cons rfl <|
      isChain_parted_append (isChain_tokens j) (isChain_tokensMembers ms)
        (isAtom_head?_tokensMembers ms)

end

/-- **The text of a value reads back as its tokens.** -/
theorem run_write_tokens {j : Json} (hexact : ∀ t ∈ j.tokens, t.IsExact) :
    Lexer.run j.write = some j.tokens :=
  run_write hexact (isChain_tokens j)

end Json

end QueryLayer
