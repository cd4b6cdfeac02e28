import QueryLayer.Document.Regex
import QueryLayer.Proofs.Pattern.Like

/-!
# The regular expression of a pattern

The part of the language of regular expressions that patterns are written in: a
text is read as nodes, and each node takes a stretch of the subject. What a
point takes and where a subject ends is not the same for all engines, and is
left to a `Regex.Mode`.

The regular expression of a LIKE pattern is read as one node for each item
between the two ends (`read_likeRegex`), so it takes what the items do. For the
text of a pattern these are the tokens that LIKE reads, and so the pattern, its
text and its regular expression say the same of every subject
(`descriptions_agree`).
-/

namespace QueryLayer

namespace Regex

/-- What takes one character. -/
inductive Atom where
  | char (c : Char)
  | dot
deriving DecidableEq, Repr

/-- A node of a regular expression. -/
inductive Node where
  /-- The start of the subject. -/
  | start
  /-- The end of the subject. -/
  | final
  | once (a : Atom)
  /-- Any number of characters, also none. -/
  | many (a : Atom)
deriving DecidableEq, Repr

/-! ## Reading -/

/-- The nodes that were read, the last one first, and whether a backslash still
waits for its character. -/
structure Reading where
  nodes : List Node
  escaped : Bool

/-- The characters of constructs that are not read. -/
def reserved : List Char := ['|', '?', '+', '(', ')', '[', ']', '{', '}']

/-- Reads one character more. A star applies to what stands before it. -/
def step (r : Reading) (c : Char) : Option Reading :=
  if r.escaped then some ⟨.once (.char c) :: r.nodes, false⟩
  else if c = '\\' then some ⟨r.nodes, true⟩
  else if c = '^' then some ⟨.start :: r.nodes, false⟩
  else if c = '$' then some ⟨.final :: r.nodes, false⟩
  else if c = '.' then some ⟨.once .dot :: r.nodes, false⟩
  else if c = '*' then
    match r.nodes with
    | .once a :: nodes => some ⟨.many a :: nodes, false⟩
    | _ => none
  else if c ∈ reserved then none
  else some ⟨.once (.char c) :: r.nodes, false⟩

/-- The nodes of a regular expression, from its first to its last. -/
def read (text : List Char) : Option (List Node) :=
  (text.foldlM step ⟨[], false⟩).bind fun r => if r.escaped then none else some r.nodes.reverse

/-! ## Matching -/

/-- What engines and their options do not agree on. -/
structure Mode where
  /-- What a point takes. -/
  dot : Char → Prop
  /-- What may stand behind the end. -/
  final : List Char → Prop

/-- A point takes every character, and nothing stands behind the end. -/
def Mode.whole : Mode := ⟨fun _ => True, (· = [])⟩

variable (m : Mode)

/-- The characters that an atom stands for. -/
def Atom.Takes : Atom → Char → Prop
  | .char c, d => d = c
  | .dot, d => m.dot d

/-- A node stands for a stretch of the subject, with this before it and that
behind it. -/
def Node.Takes (before stretch after : List Char) : Node → Prop
  | .start => stretch = [] ∧ before = []
  | .final => stretch = [] ∧ m.final after
  | .once a => ∃ c, stretch = [c] ∧ a.Takes m c
  | .many a => ∀ c ∈ stretch, a.Takes m c

/-- The nodes stand one after the other for a stretch of the subject. -/
def Spans : List Node → List Char → List Char → List Char → Prop
  | [], _, span, _ => span = []
  | node :: nodes, before, span, after => ∃ stretch rest, stretch ++ rest = span ∧
      node.Takes m before stretch (rest ++ after) ∧ Spans nodes (before ++ stretch) rest after

/-- The regular expression stands for the subject from its start to its end. -/
def Matches (text subject : List Char) : Prop :=
  ∃ nodes, read text = some nodes ∧ Spans m nodes [] subject []

end Regex

namespace Document

open Regex

/-! ## Items -/

namespace LikeItem

/-- The node of an item. -/
def node : LikeItem → Node
  | .any => .many .dot
  | .one => .once .dot
  | .literal c => .once (.char c)

/-- The stretches that an item stands for where points take only some characters. -/
def Takes (m : Mode) : LikeItem → List Char → Prop
  | .any, stretch => ∀ c ∈ stretch, m.dot c
  | .one, stretch => ∃ c, stretch = [c] ∧ m.dot c
  | .literal c, stretch => stretch = [c]

/-- The token of an item. -/
def token : LikeItem → Like.Token
  | .any => .any
  | .one => .one
  | .literal c => .literal c

theorem takes_node (m : Mode) (item : LikeItem) (before stretch after : List Char) :
    item.node.Takes m before stretch after ↔ item.Takes m stretch := by
  cases item with
  | any | one => exact Iff.rfl
  | literal c => simp [node, Node.Takes, Atom.Takes, Takes]

theorem takes_token (item : LikeItem) (stretch : List Char) :
    item.token.Takes stretch ↔ item.Takes .whole stretch := by
  cases item <;> simp [token, Like.Token.Takes, Takes, Mode.whole]

/-- A character that is written as it is has no other meaning. -/
theorem step_of_notMem_specialChars {c : Char} (hc : c ∉ specialChars) (nodes : List Node) :
    step ⟨nodes, false⟩ c = some ⟨.once (.char c) :: nodes, false⟩ := by
  simp only [specialChars, List.mem_cons, List.not_mem_nil, or_false, not_or] at hc
  simp [step, reserved, hc]

/-- The text of an item is read as its node. -/
theorem foldlM_step_regex (item : LikeItem) (nodes : List Node) :
    item.regex.foldlM step ⟨nodes, false⟩ = some ⟨item.node :: nodes, false⟩ := by
  cases item with
  | any | one => rfl
  | literal c =>
    rw [regex]
    split
    · rfl
    · next hc =>
      rw [List.foldlM_cons, step_of_notMem_specialChars hc]
      rfl

theorem foldlM_step_items (items : List LikeItem) (nodes : List Node) :
    (items.flatMap regex).foldlM step ⟨nodes, false⟩ =
      some ⟨(items.map node).reverse ++ nodes, false⟩ := by
  induction items generalizing nodes with
  | nil => rfl
  | cons item items ih =>
    rw [List.flatMap_cons, List.foldlM_append, foldlM_step_regex, Option.bind_eq_bind,
      Option.bind_some, ih, List.map_cons, List.reverse_cons, List.append_assoc,
      List.singleton_append]

end LikeItem

variable {m : Mode} {pattern subject : List Char}

/-- **The regular expression of a LIKE pattern is read back**: its items, from
the start of the subject to its end. -/
theorem read_likeRegex (pattern : List Char) : Regex.read (likeRegex pattern) =
    some (.start :: ((likeItems pattern).map LikeItem.node ++ [.final])) := by
  have hstart : step ⟨[], false⟩ '^' = some ⟨[.start], false⟩ := rfl
  have hfinal : ∀ nodes, step ⟨nodes, false⟩ '$' = some ⟨.final :: nodes, false⟩ := fun _ => rfl
  rw [Regex.read, likeRegex, List.foldlM_cons, hstart, Option.bind_eq_bind, Option.bind_some,
    List.foldlM_append, LikeItem.foldlM_step_items, Option.bind_eq_bind, Option.bind_some,
    List.foldlM_cons, hfinal]
  simp

/-- Items up to the end of the subject. -/
theorem spans_items {items : List LikeItem} {before span after : List Char} :
    Spans m (items.map LikeItem.node ++ [.final]) before span after ↔
      Concatenates (LikeItem.Takes m) items span ∧ m.final after := by
  induction items generalizing before span with
  | nil =>
    rw [concatenates_nil]
    constructor
    · rintro ⟨_, _, rfl, ⟨rfl, hfinal⟩, rfl⟩
      exact ⟨rfl, hfinal⟩
    · rintro ⟨rfl, hfinal⟩
      exact ⟨[], [], rfl, ⟨rfl, hfinal⟩, rfl⟩
  | cons item items ih =>
    rw [List.map_cons, List.cons_append, Spans, concatenates_cons]
    simp only [LikeItem.takes_node, ih]
    constructor
    · rintro ⟨stretch, rest, hspan, hstretch, hrest, hfinal⟩
      exact ⟨⟨stretch, rest, hstretch, hrest, hspan⟩, hfinal⟩
    · rintro ⟨⟨stretch, rest, hstretch, hrest, hspan⟩, hfinal⟩
      exact ⟨stretch, rest, hspan, hstretch, hrest, hfinal⟩

/-- The regular expression of a LIKE pattern takes what its items take. -/
theorem matches_likeRegex : Regex.Matches m (likeRegex pattern) subject ↔
    Concatenates (LikeItem.Takes m) (likeItems pattern) subject ∧ m.final [] := by
  rw [Regex.Matches, read_likeRegex]
  simp only [Option.some.injEq, exists_eq_left']
  constructor
  · rintro ⟨stretch, rest, hsubject, ⟨rfl, -⟩, hspans⟩
    obtain rfl : rest = subject := hsubject
    exact spans_items.1 hspans
  · intro h
    exact ⟨[], subject, rfl, ⟨rfl, rfl⟩, spans_items.2 h⟩

/-- The items of a pattern are the tokens that LIKE reads, if the pattern does
not break off. -/
theorem tokens_eq_map_token (h : .broken ∉ Like.tokens .standard pattern) :
    Like.tokens .standard pattern = (likeItems pattern).map LikeItem.token := by
  rw [Like.tokens] at h ⊢
  -- one item more at the front, whichever it is
  have hcons : ∀ {text rest : List Char} {item : LikeItem},
      Like.tokensFrom .standard .plain text =
        item.token :: Like.tokensFrom .standard .plain rest →
      (.broken ∉ Like.tokensFrom .standard .plain rest →
        Like.tokensFrom .standard .plain rest = (likeItems rest).map LikeItem.token) →
      .broken ∉ Like.tokensFrom .standard .plain text →
      Like.tokensFrom .standard .plain text = (item :: likeItems rest).map LikeItem.token := by
    intro text rest item htext hrest hbroken
    rw [htext] at hbroken ⊢
    rw [List.map_cons, hrest fun hmem => hbroken (List.mem_cons_of_mem _ hmem)]
  fun_induction likeItems pattern with
  | case1 => rfl
  | case2 => exact absurd List.mem_cons_self h
  | case3 c cs ih => exact hcons rfl ih h
  | case4 cs ih => exact hcons rfl ih h
  | case5 cs ih => exact hcons rfl ih h
  | case6 c cs hlast hescape hany hone ih =>
    have hbackslash : c ≠ '\\' := by
      rintro rfl
      cases cs with
      | nil => exact hlast rfl rfl
      | cons d cs => exact hescape d cs rfl rfl
    have hplain : ¬ Pattern.written c = true := by
      rw [Pattern.written_iff]
      rintro (rfl | rfl | rfl)
      · exact hany rfl
      · exact hone rfl
      · exact hbackslash rfl
    exact hcons (Pattern.tokensFrom_standard_cons hplain cs) ih h

end Document

namespace Pattern

theorem broken_notMem_tokens (parts : List Part) : .broken ∉ parts.flatMap Part.tokens := by
  intro h
  obtain ⟨part, -, hpart⟩ := List.mem_flatMap.1 h
  cases part <;> simp [Part.tokens] at hpart

/-- **A pattern, its text and its regular expression say the same.** The subject
is a concatenation of what the calls ask for, exactly if the text of the pattern
matches it where the backslash escapes, and exactly if the regular expression of
the text matches it where a point takes any character. -/
theorem descriptions_agree (start : Start) (calls : List Call) (subject : List Char) :
    (Describes (asked start calls) subject ↔
      Like.Matches .standard (build start calls).text.toList subject) ∧
    (Like.Matches .standard (build start calls).text.toList subject ↔
      Regex.Matches .whole (Document.likeRegex (build start calls).text.toList) subject) := by
  have htext : (build start calls).text.toList = (asked start calls).flatMap Part.like := by
    rw [text, String.toList_ofList, like, parts_build]
  have htokens : Like.tokens .standard ((asked start calls).flatMap Part.like) =
      (asked start calls).flatMap Part.tokens :=
    tokens_like fun part _ => readsBack_standard part
  have hbroken : .broken ∉ Like.tokens .standard ((asked start calls).flatMap Part.like) := by
    rw [htokens]
    exact broken_notMem_tokens _
  rw [htext]
  refine ⟨matches_like.symm, ?_⟩
  rw [Like.Matches, Document.tokens_eq_map_token hbroken, Document.matches_likeRegex,
    concatenates_map Document.LikeItem.takes_token]
  exact (and_iff_left rfl).symm

/-- Texts with special characters side by side come through unchanged. -/
example : (build (.startsWith "50%") [.exactly "\\(_", .one]).text = "50\\%%\\\\(\\__" ∧
    String.ofList (Document.likeRegex (build (.startsWith "50%") [.exactly "\\(_", .one]).text.toList) =
      "^50%.*\\\\\\(_.$" := by decide

end Pattern

end QueryLayer
