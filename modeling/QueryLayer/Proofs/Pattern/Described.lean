import QueryLayer.Pattern
import Mathlib.Data.List.Forall2

/-!
# What a pattern describes

A pattern is made by calls. The first one may start it, and each of the others
adds a part. A subject is described by parts if it can be cut into stretches,
one for each part in its place (`Pattern.Describes`).

Patterns, LIKE texts and regular expressions all cut their subjects, each with
items of its own; `Concatenates` is the notion they share.
-/

namespace QueryLayer

/-! ## Cutting a text -/

section Concatenates

variable {α β : Type} {takes : α → List Char → Prop} {takes' : β → List Char → Prop}
  {item : α} {items items' : List α} {text : List Char}

/-- The text is a concatenation of stretches, one for each item and taken by it. -/
def Concatenates (takes : α → List Char → Prop) (items : List α) (text : List Char) : Prop :=
  ∃ stretches, List.Forall₂ takes items stretches ∧ stretches.flatten = text

theorem concatenates_nil : Concatenates takes [] text ↔ text = [] := by
  constructor
  · rintro ⟨stretches, htakes, rfl⟩
    rw [List.forall₂_nil_left_iff.1 htakes, List.flatten_nil]
  · rintro rfl
    exact ⟨[], .nil, rfl⟩

theorem concatenates_cons : Concatenates takes (item :: items) text ↔
    ∃ stretch rest, takes item stretch ∧ Concatenates takes items rest ∧ stretch ++ rest = text := by
  constructor
  · rintro ⟨stretches, htakes, rfl⟩
    obtain ⟨stretch, rest, hstretch, hrest, rfl⟩ := List.forall₂_cons_left_iff.1 htakes
    exact ⟨stretch, rest.flatten, hstretch, ⟨rest, hrest, rfl⟩, rfl⟩
  · rintro ⟨stretch, _, hstretch, ⟨rest, hrest, rfl⟩, rfl⟩
    exact ⟨stretch :: rest, .cons hstretch hrest, rfl⟩

theorem concatenates_append : Concatenates takes (items ++ items') text ↔
    ∃ start rest, Concatenates takes items start ∧ Concatenates takes items' rest ∧
      start ++ rest = text := by
  induction items generalizing text with
  | nil => simp [concatenates_nil]
  | cons item items ih =>
    rw [List.cons_append, concatenates_cons]
    constructor
    · rintro ⟨stretch, _, hstretch, htail, rfl⟩
      obtain ⟨start, rest, hstart, hrest, rfl⟩ := ih.1 htail
      exact ⟨stretch ++ start, rest, concatenates_cons.2 ⟨stretch, start, hstretch, hstart, rfl⟩,
        hrest, List.append_assoc _ _ _⟩
    · rintro ⟨_, rest, hhead, hrest, rfl⟩
      obtain ⟨stretch, start, hstretch, hstart, rfl⟩ := concatenates_cons.1 hhead
      exact ⟨stretch, start ++ rest, hstretch, ih.2 ⟨start, rest, hstart, hrest, rfl⟩,
        (List.append_assoc _ _ _).symm⟩

/-- Items may be put for one another where they take the same stretches. -/
theorem concatenates_flatMap {f : α → List β}
    (h : ∀ item text, Concatenates takes' (f item) text ↔ takes item text) :
    Concatenates takes' (items.flatMap f) text ↔ Concatenates takes items text := by
  induction items generalizing text with
  | nil => simp [concatenates_nil]
  | cons item items ih =>
    rw [List.flatMap_cons, concatenates_append, concatenates_cons]
    simp only [h, ih]

theorem concatenates_map {f : α → β} (h : ∀ item text, takes' (f item) text ↔ takes item text) :
    Concatenates takes' (items.map f) text ↔ Concatenates takes items text := by
  simp only [Concatenates, List.forall₂_map_left_iff, h]

/-- Characters that stand for themselves make up one text. -/
theorem concatenates_literals {s : List Char} :
    Concatenates (fun c stretch => stretch = [c]) s text ↔ text = s := by
  induction s generalizing text with
  | nil => exact concatenates_nil
  | cons c s ih =>
    rw [concatenates_cons]
    constructor
    · rintro ⟨_, rest, rfl, hrest, rfl⟩
      rw [ih.1 hrest, List.singleton_append]
    · rintro rfl
      exact ⟨[c], s, rfl, ih.2 rfl, rfl⟩

end Concatenates

namespace Pattern

/-! ## Calls -/

/-- How a pattern starts. -/
inductive Start where
  | empty
  | startsWith (s : String)
  | endsWith (s : String)
  | contains (s : String)
deriving DecidableEq, Repr

namespace Start

/-- The pattern so far. -/
def pattern : Start → Pattern
  | .empty => .empty
  | .startsWith s => .startsWith s
  | .endsWith s => .endsWith s
  | .contains s => .contains s

/-- The parts that the start asks for. -/
def parts : Start → List Part
  | .empty => []
  | .startsWith s => [.exactly s.toList, .any]
  | .endsWith s => [.any, .exactly s.toList]
  | .contains s => [.any, .exactly s.toList, .any]

theorem parts_pattern (start : Start) : start.pattern.parts = start.parts := by
  cases start <;> rfl

end Start

/-- A call that adds to a pattern. -/
inductive Call where
  | exactly (s : String)
  | any
  | one
deriving DecidableEq, Repr

namespace Call

/-- The pattern after the call. -/
def apply (p : Pattern) : Call → Pattern
  | .exactly s => p.exactly s
  | .any => p.any
  | .one => p.one

/-- The part that the call asks for. -/
def part : Call → Part
  | .exactly s => .exactly s.toList
  | .any => .any
  | .one => .one

theorem parts_apply (p : Pattern) (call : Call) :
    (call.apply p).parts = p.parts ++ [call.part] := by
  cases call <;> rfl

end Call

/-- The pattern that the calls make, one after the other. -/
def build (start : Start) (calls : List Call) : Pattern := calls.foldl Call.apply start.pattern

/-- The parts that the calls ask for. -/
def asked (start : Start) (calls : List Call) : List Part := start.parts ++ calls.map Call.part

theorem parts_foldl_apply (p : Pattern) (calls : List Call) :
    (calls.foldl Call.apply p).parts = p.parts ++ calls.map Call.part := by
  induction calls generalizing p with
  | nil => rw [List.foldl_nil, List.map_nil, List.append_nil]
  | cons call calls ih =>
    rw [List.foldl_cons, ih, Call.parts_apply, List.append_assoc, List.singleton_append,
      List.map_cons]

/-- **A built pattern has the parts that were asked for**, in their order. -/
theorem parts_build (start : Start) (calls : List Call) :
    (build start calls).parts = asked start calls := by
  rw [build, parts_foldl_apply, Start.parts_pattern, asked]

/-! ## Described subjects -/

/-- The stretches that a part stands for. -/
def Part.Takes : Part → List Char → Prop
  | .exactly s, stretch => stretch = s
  | .any, _ => True
  | .one, stretch => ∃ c, stretch = [c]

/-- The subject is a concatenation of what the parts stand for. -/
def Describes (parts : List Part) (subject : List Char) : Prop :=
  Concatenates Part.Takes parts subject

end Pattern

end QueryLayer
