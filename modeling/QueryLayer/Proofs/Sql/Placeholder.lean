import QueryLayer.Proofs.Sql.Legible
import QueryLayer.Proofs.Meaning.Entries
import QueryLayer.Sql.Clause

/-!
# Placeholders and what they stand for

A text is labelled with the slots its characters were written for. Its
placeholders are then found by reading the text alone, outside of all quotes,
and the labels they carry are the slots of the fragment in order
(`placeholders_labelled`).

The rest of the module says which slots a test has, and that the clauses beside the
filter and the window have none.
-/

namespace QueryLayer

namespace Sql

namespace Lexeme

variable {β : Type}

/-- The label of a placeholder. -/
def placeholder? : Lexeme β → Option β
  | .plain c b => if c = '?' then some b else none
  | .quoted _ _ => none

end Lexeme

/-- The labels of the placeholders of a text, which are the question marks
outside of names and literals. -/
def placeholders {β : Type} (q : Text.Quotes) (cs : List (Char × β)) : Option (List β) :=
  (lexemes q cs).map fun ls => ls.filterMap Lexeme.placeholder?

namespace Piece

/-- The slot of a piece and its value. -/
def slot? : Piece → Option (Slot × Value)
  | .slot s v => some (s, v)
  | _ => none

end Piece

namespace Fragment

variable {f g : Fragment}

/-- The slots of a fragment with their values. -/
def slots (f : Fragment) : List (Slot × Value) := f.filterMap Piece.slot?

@[simp] theorem slots_nil : slots [] = [] := rfl

theorem piecewise_slots : Piecewise slots := piecewise_filterMap Piece.slot?

@[simp] theorem slots_append (f g : Fragment) : slots (f ++ g) = slots f ++ slots g :=
  piecewise_slots.append f g

@[simp] theorem slots_text_cons (s : String) (f : Fragment) : slots (.text s :: f) = slots f := rfl

@[simp] theorem slots_name_cons (n : String) (f : Fragment) : slots (.name n :: f) = slots f := rfl

@[simp] theorem slots_literal_cons (content : List Char) (f : Fragment) :
    slots (.literal content :: f) = slots f := rfl

@[simp] theorem slots_slot_cons (s : Slot) (v : Value) (f : Fragment) :
    slots (.slot s v :: f) = (s, v) :: slots f := rfl

@[simp] theorem slots_join (mark : String) (fs : List Fragment) :
    slots (join mark fs) = fs.flatMap slots :=
  piecewise_slots.join_of_silent rfl fs

/-- Slots by themselves. -/
theorem flatMap_slots_singletons (s : ℕ → Slot) (vs : List Value) :
    (vs.mapIdx fun i v => [Piece.slot (s i) v]).flatMap slots = vs.mapIdx fun i v => (s i, v) := by
  induction vs generalizing s with
  | nil => rfl
  | cons v vs ih =>
    rw [List.mapIdx_cons, List.mapIdx_cons, List.flatMap_cons, ih fun i => s (i + 1)]
    rfl

/-- The bound values are the values of the slots. -/
theorem bound_eq_slots (f : Fragment) : bound f = (slots f).map Prod.snd := by
  induction f with
  | nil => rfl
  | cons p f ih =>
    cases p with
    | slot s v =>
      rw [slots_slot_cons, List.map_cons, ← ih]
      rfl
    | text s | name n | literal content => exact ih

/-- A clean text holds no placeholder. -/
theorem filterMap_placeholder?_text {β : Type} {s : String} (hs : (Piece.text s).Clean) (b : β) :
    (s.toList.map (Lexeme.plain · b)).filterMap Lexeme.placeholder? = [] := by
  refine List.filterMap_eq_nil_iff.2 fun l hl => ?_
  obtain ⟨c, hc, rfl⟩ := List.mem_map.1 hl
  exact if_neg (hs.2 c hc).2

/-- **The placeholders of a text carry the labels of its slots**, in order, and
nothing else is a placeholder. -/
theorem placeholders_labelled {β : Type} {label : Piece → β} {q : Text.Quotes} (hq : Known q)
    (hf : Legible f) :
    placeholders q (labelled label q f) = some ((f.filter (·.slot?.isSome)).map label) := by
  rw [placeholders, lexemes_labelled hq hf, Option.map_some]
  congr 1
  -- from here on it does not matter which pieces stand side by side
  have hclean := hf.1
  clear hf
  induction f with
  | nil => rfl
  | cons p f ih =>
    have ih := ih fun p' hp' => hclean p' (by simp [hp'])
    have hp := hclean p (by simp)
    rw [List.flatMap_cons, List.filterMap_append, ih]
    cases p with
    | text s =>
      rw [Piece.lexemes, filterMap_placeholder?_text hp]
      rfl
    | name n | literal content | slot s v => rfl

/-- A text without slots has no placeholders. -/
theorem placeholders_of_no_slots {q : Text.Quotes} (hq : Known q) (hf : Legible f)
    (hslots : slots f = []) : placeholders q ((write q f).map (·, ())) = some [] := by
  have hnone : f.filter (·.slot?.isSome) = [] := by
    rw [List.filter_eq_nil_iff]
    intro p hp
    have hslot := List.filterMap_eq_nil_iff.1 hslots p hp
    simp [hslot]
  rw [map_write_eq_labelled, placeholders_labelled hq hf, hnone]
  rfl

end Fragment

open Fragment

/-! ## The slots of tests -/

/-- The slots of a criterion with their values. -/
def criterionSlots : Criterion → List (Slot × Value)
  | .equals v | .like v | .lower v | .higher v => [(.operand, v)]
  | .null => []
  | .oneOf vs => vs.mapIdx fun i v => (.item i, v)
  | .between lower upper => [(.lowerBound, lower), (.upperBound, upper)]

@[simp] theorem slots_fieldName (f : FieldRef) : slots (fieldName f) = [] := by
  simp [fieldName, List.flatMap_map]

@[simp] theorem slots_target (t : Target) : slots (target t) = [] := by
  obtain ⟨field, aggregation⟩ := t
  cases aggregation <;> simp [target]

@[simp] theorem slots_table (d : Dialect) (c : CollectionRef) : slots (d.table c) = [] := by
  unfold Dialect.table
  cases d.environment <;> rfl

@[simp] theorem slots_negation (negated : Bool) : slots (negation negated) = [] := by
  cases negated <;> rfl

@[simp] theorem slots_itemSlots (vs : List Value) :
    slots (itemSlots vs) = vs.mapIdx fun i v => (.item i, v) := by
  rw [itemSlots, slots_join, flatMap_slots_singletons Slot.item]

/-- The slots of a test stand behind its target. -/
@[simp] theorem slots_test (negated : Bool) (t : Test) :
    slots (test negated t) = criterionSlots t.criterion := by
  obtain ⟨target, criterion⟩ := t
  cases criterion <;> simp [test, comparison, criterionSlots]

/-! ## Clauses without slots -/

@[simp] theorem slots_column (d : Dialect) (c : Option CollectionRef) (name : String) :
    slots (column d c name) = [] := by
  cases c <;> simp [column]

@[simp] theorem slots_joinPairs (d : Dialect) (pairs : List JoinPair) :
    slots (joinPairs d pairs) = [] := by
  rw [joinPairs, piecewise_slots.flatten, List.flatMap_eq_nil_iff]
  intro f hf
  obtain ⟨i, hi, rfl⟩ := List.mem_mapIdx.1 hf
  simp

@[simp] theorem slots_joins (d : Dialect) (js : List Join) : slots (joins d js) = [] := by
  simp [joins, join, List.flatMap_map]

@[simp] theorem slots_groupBy (ts : List Target) : slots (groupBy ts) = [] := by
  unfold groupBy
  split
  · rfl
  · simp [List.flatMap_map]

@[simp] theorem slots_orderBy (d : Dialect) (c : Clauses) : slots (orderBy d c) = [] := by
  unfold orderBy
  split
  · split <;> rfl
  · simp [sortKey, List.flatMap_map]

end Sql

end QueryLayer
