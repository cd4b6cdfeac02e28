import QueryLayer.Json.Reader
import QueryLayer.Proofs.Json.Lexed

/-!
# Values read back from their text

The reader hands every value it has read to the container around it
(`foldlM_tokens`), as long as the stack of open containers and the depth of the
value stay within the limit together. With the lexer's law this gives the law
of the compact text: an exact value within the limit is read back
(`read_compact`).

A value is exact when all of its tokens are. So exactness needs no recursion
of its own, and goes through arrays, objects and records by the lemmas tagged
for `simp`.
-/

namespace QueryLayer

namespace Json

/-! ## Exact values -/

/-- The value can be told from its text: every integer in it fits 64 bits,
signed or unsigned, and no part of it is a float or broken. -/
def IsExact (j : Json) : Prop := ∀ t ∈ j.tokens, t.IsExact

@[simp] theorem isExact_null : null.IsExact := by
  simp [IsExact, tokens, Token.IsExact]

@[simp] theorem isExact_bool (b : Bool) : (bool b).IsExact := by
  simp [IsExact, tokens, Token.IsExact]

@[simp] theorem isExact_string (s : String) : (string s).IsExact := by
  simp [IsExact, tokens, Token.IsExact]

theorem isExact_int {n : Int} (hlow : Int64.minValue.toInt ≤ n)
    (hhigh : n ≤ (Numeral.maxSignificand : Int)) : (int n).IsExact := by
  intro t ht
  obtain rfl : t = .int n := by simpa [tokens] using ht
  exact ⟨hlow, hhigh⟩

theorem forall_tokensItems {js : List Json} :
    (∀ t ∈ tokensItems js, t.IsExact) ↔ ∀ j ∈ js, j.IsExact := by
  induction js with
  | nil => simp [tokensItems, Token.IsExact]
  | cons j js ih =>
    simp only [tokensItems, List.forall_mem_cons, List.forall_mem_append, ih]
    simp [Token.IsExact, IsExact]

theorem forall_tokensMembers {ms : List (String × Json)} :
    (∀ t ∈ tokensMembers ms, t.IsExact) ↔ ∀ m ∈ ms, m.2.IsExact := by
  induction ms with
  | nil => simp [tokensMembers, Token.IsExact]
  | cons m ms ih =>
    obtain ⟨k, j⟩ := m
    simp only [tokensMembers, List.forall_mem_cons, List.forall_mem_append, ih]
    simp [Token.IsExact, IsExact]

/-- An array is exact when its items are. -/
@[simp] theorem isExact_array {js : List Json} : (array js).IsExact ↔ ∀ j ∈ js, j.IsExact := by
  cases js with
  | nil => simp [IsExact, tokens, Token.IsExact]
  | cons j js =>
    rw [IsExact, tokens, List.forall_mem_cons, List.forall_mem_append, forall_tokensItems,
      List.forall_mem_cons]
    simp [Token.IsExact, IsExact]

/-- An object is exact when the values of its members are. -/
@[simp] theorem isExact_object {ms : List (String × Json)} :
    (object ms).IsExact ↔ ∀ m ∈ ms, m.2.IsExact := by
  cases ms with
  | nil => simp [IsExact, tokens, Token.IsExact]
  | cons m ms =>
    obtain ⟨k, j⟩ := m
    rw [IsExact, tokens, List.forall_mem_cons, List.forall_mem_cons, List.forall_mem_cons,
      List.forall_mem_append, forall_tokensMembers, List.forall_mem_cons]
    simp [Token.IsExact, IsExact]

/-- A record is exact when the values of its members are. -/
@[simp] theorem isExact_record {ms : List (String × Option Json)} :
    (record ms).IsExact ↔ ∀ m ∈ ms, ∀ j ∈ m.2, j.IsExact := by
  rw [record, isExact_object]
  constructor
  · intro h m hm j hj
    exact h (m.1, j) (List.mem_filterMap.2 ⟨m, hm, by simp [Option.mem_def.1 hj]⟩)
  · intro h m hm
    obtain ⟨m', hm', hmap⟩ := List.mem_filterMap.1 hm
    obtain ⟨j, hj, rfl⟩ := Option.map_eq_some_iff.1 hmap
    exact h m' hm' j hj

mutual

/-- **An exact value is sound.** -/
theorem IsExact.isSound : ∀ {j : Json}, j.IsExact → j.isSound = true
  | .null, _ | .bool _, _ | .int _, _ | .float _, _ | .string _, _ => rfl
  | .array _, h => areSoundItems_of_isExact (isExact_array.1 h)
  | .object _, h => areSoundMembers_of_isExact (isExact_object.1 h)
  | .broken, h => by simp [IsExact, tokens, Token.IsExact] at h

theorem areSoundItems_of_isExact :
    ∀ {js : List Json}, (∀ j ∈ js, j.IsExact) → areSoundItems js = true
  | [], _ => rfl
  | j :: js, h => by
    rw [List.forall_mem_cons] at h
    rw [areSoundItems, IsExact.isSound h.1, areSoundItems_of_isExact h.2]
    rfl

theorem areSoundMembers_of_isExact :
    ∀ {ms : List (String × Json)}, (∀ m ∈ ms, m.2.IsExact) → areSoundMembers ms = true
  | [], _ => rfl
  | (k, j) :: ms, h => by
    rw [List.forall_mem_cons] at h
    rw [areSoundMembers, IsExact.isSound h.1, areSoundMembers_of_isExact h.2]
    rfl

end

/-! ## The reader -/

namespace Reader

variable {limit : Nat}

/-- No value begins with the end of an array. -/
theorem exists_tokens_eq_cons (j : Json) : ∃ t ts, j.tokens = t :: ts ∧ t ≠ .closeArray := by
  cases j with
  | array js => cases js <;> exact ⟨_, _, rfl, by simp⟩
  | object ms => cases ms <;> exact ⟨_, _, rfl, by simp⟩
  | _ => exact ⟨_, _, rfl, by simp⟩

/-- The first item of an array is read like the value of any other item. -/
theorem foldlM_firstItem (j : Json) (ts : List Token) (stack : List Frame) :
    (j.tokens ++ ts).foldlM (step limit) (.firstItem stack) =
      (j.tokens ++ ts).foldlM (step limit) (.value (.array [] :: stack)) := by
  obtain ⟨t, us, htokens, hopen⟩ := exists_tokens_eq_cons j
  have hstep : step limit (.firstItem stack) t = step limit (.value (.array [] :: stack)) t := by
    cases t <;> first | rfl | exact absurd rfl hopen
  rw [htokens, List.cons_append, List.foldlM_cons, List.foldlM_cons, hstep]

/-- A container that is not too deep is handed over as it is. -/
theorem close_of_lt {j : Json} {stack : List Frame} (h : stack.length < limit) :
    close limit j stack = deliver j stack := by
  rw [close, if_pos h]

mutual

/-- **A value within the limit** is read and handed to the container around
it, whatever follows. -/
theorem foldlM_tokens : ∀ (j : Json) (stack : List Frame) (ts : List Token),
    stack.length + j.depth ≤ limit →
    (j.tokens ++ ts).foldlM (step limit) (.value stack) = ts.foldlM (step limit) (deliver j stack)
  | .null, _, _, _ | .bool _, _, _, _ | .int _, _, _, _ | .float _, _, _, _ | .string _, _, _, _
  | .broken, _, _, _ => rfl
  | .array [], stack, ts, h => by
    rw [depth] at h
    show ts.foldlM (step limit) (close limit (.array []) stack) = _
    rw [close_of_lt (by omega)]
  | .array (j :: js), stack, ts, h => by
    rw [depth, depthItems] at h
    have hfirst := foldlM_tokens j (.array [] :: stack) (tokensItems js ++ ts)
      (by rw [List.length_cons]; omega)
    have hrest := foldlM_tokensItems js [j] stack ts (by omega)
    -- the frame of the array is on the stack while its items are read
    show (tokens j ++ tokensItems js ++ ts).foldlM (step limit) (.firstItem stack) = _
    rw [List.append_assoc, foldlM_firstItem, hfirst]
    exact hrest
  | .object [], stack, ts, h => by
    rw [depth] at h
    show ts.foldlM (step limit) (close limit (.object []) stack) = _
    rw [close_of_lt (by omega)]
  | .object ((k, j) :: ms), stack, ts, h => by
    rw [depth, depthMembers] at h
    have hfirst := foldlM_tokens j (.object (some []) (some k) :: stack) (tokensMembers ms ++ ts)
      (by rw [List.length_cons]; omega)
    have hrest := foldlM_tokensMembers ms [(k, j)] stack ts (by omega)
    show (tokens j ++ tokensMembers ms ++ ts).foldlM (step limit)
      (.value (.object (some []) (some k) :: stack)) = _
    rw [List.append_assoc, hfirst]
    exact hrest

/-- The items after the first ones, up to the end of the array. -/
theorem foldlM_tokensItems : ∀ (js done : List Json) (stack : List Frame) (ts : List Token),
    stack.length + 1 + depthItems js ≤ limit →
    (tokensItems js ++ ts).foldlM (step limit) (.afterItem done stack) =
      ts.foldlM (step limit) (deliver (.array (done.reverse ++ js)) stack)
  | [], done, stack, ts, h => by
    show ts.foldlM (step limit) (close limit (.array done.reverse) stack) = _
    rw [close_of_lt (by omega), List.append_nil]
  | j :: js, done, stack, ts, h => by
    rw [depthItems] at h
    have hitem := foldlM_tokens j (.array done :: stack) (tokensItems js ++ ts)
      (by rw [List.length_cons]; omega)
    have hrest := foldlM_tokensItems js (j :: done) stack ts (by omega)
    show (tokens j ++ tokensItems js ++ ts).foldlM (step limit) (.value (.array done :: stack)) = _
    rw [List.reverse_cons, List.append_assoc, List.singleton_append] at hrest
    rw [List.append_assoc, hitem]
    exact hrest

/-- The members after the first ones, up to the end of the object. -/
theorem foldlM_tokensMembers :
    ∀ (ms done : List (String × Json)) (stack : List Frame) (ts : List Token),
    stack.length + 1 + depthMembers ms ≤ limit →
    (tokensMembers ms ++ ts).foldlM (step limit) (.afterMember (some done) stack) =
      ts.foldlM (step limit) (deliver (.object (done.reverse ++ ms)) stack)
  | [], done, stack, ts, h => by
    show ts.foldlM (step limit) (close limit (.object done.reverse) stack) = _
    rw [close_of_lt (by omega), List.append_nil]
  | (k, j) :: ms, done, stack, ts, h => by
    rw [depthMembers] at h
    have hmember := foldlM_tokens j (.object (some done) (some k) :: stack) (tokensMembers ms ++ ts)
      (by rw [List.length_cons]; omega)
    have hrest := foldlM_tokensMembers ms ((k, j) :: done) stack ts (by omega)
    show (tokens j ++ tokensMembers ms ++ ts).foldlM (step limit)
      (.value (.object (some done) (some k) :: stack)) = _
    rw [List.reverse_cons, List.append_assoc, List.singleton_append] at hrest
    rw [List.append_assoc, hmember]
    exact hrest

end

/-- The reader undoes `tokens` on values within the limit. -/
theorem run_tokens {j : Json} (h : j.depth ≤ limit) : run limit j.tokens = some j := by
  have hfold : (j.tokens ++ []).foldlM (step limit) (.value []) = some (.done j) :=
    foldlM_tokens j [] [] (by rw [List.length_nil]; omega)
  rw [List.append_nil] at hfold
  rw [run, hfold]
  rfl

end Reader

/-- **The compact text of a value gives the value back**, if the value is exact
and within the limit. -/
theorem read_compact {j : Json} {limit : Nat} (hexact : j.IsExact) (hdepth : j.depth ≤ limit) :
    read limit j.compact = some j := by
  rw [read, compact, String.toList_ofList, run_write_tokens hexact, Option.bind_some,
    Reader.run_tokens hdepth]

end Json

end QueryLayer
