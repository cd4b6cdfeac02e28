import QueryLayer.Proofs.Sql.Placeholder
import QueryLayer.Proofs.Sql.Traversal

/-!
# Fragments without their values

A fragment binds a value with each of its placeholders. Where the values are kept
apart, what is left of the fragment has the same text (`write_unbound`).
-/

namespace QueryLayer

namespace Sql

open Fragment

/-- The piece with a mark in the place of its value. -/
def Piece.unbound : Piece → Piece
  | .slot _ _ => Traversal.mark
  | p => p

namespace Fragment

variable {f g : Fragment}

/-- The fragment with marks in the place of its values. -/
def unbound (f : Fragment) : Fragment := f.map Piece.unbound

@[simp] theorem unbound_nil : unbound [] = [] := rfl

theorem piecewise_unbound : Piecewise unbound := piecewise_map Piece.unbound

@[simp] theorem unbound_append (f g : Fragment) : unbound (f ++ g) = unbound f ++ unbound g :=
  piecewise_unbound.append f g

@[simp] theorem unbound_text_cons (s : String) (f : Fragment) :
    unbound (.text s :: f) = .text s :: unbound f := rfl

@[simp] theorem unbound_slot_cons (s : Slot) (v : Value) (f : Fragment) :
    unbound (.slot s v :: f) = Traversal.mark :: unbound f := rfl

/-- A fragment without values stays as it is. -/
theorem unbound_of_no_slots (h : slots f = []) : unbound f = f := by
  induction f with
  | nil => rfl
  | cons p f ih =>
    cases p with
    | slot s v => simp at h
    | text s | name n | literal content => exact congrArg _ (ih h)

/-- A fragment without values binds none. -/
theorem bound_of_no_slots (h : slots f = []) : bound f = [] := by
  rw [bound_eq_slots, h]
  rfl

/-- The text is the same. -/
@[simp] theorem write_unbound (q : Text.Quotes) (f : Fragment) :
    write q (unbound f) = write q f := by
  induction f with
  | nil => rfl
  | cons p f ih =>
    have hp : p.unbound.write q = p.write q := by cases p <;> rfl
    rw [unbound, List.map_cons, write, List.flatMap_cons, hp, write, List.flatMap_cons]
    exact congrArg _ ih

theorem piecewise_bound : Piecewise bound := piecewise_filterMap Piece.bound

/-- Marks between fragments bind nothing. -/
theorem bound_join (mark : String) (fs : List Fragment) : bound (join mark fs) = fs.flatMap bound :=
  piecewise_bound.join_of_silent rfl fs

/-- Marks between fragments stay. -/
theorem unbound_join (mark : String) (fs : List Fragment) :
    unbound (join mark fs) = join mark (fs.map unbound) :=
  piecewise_unbound.join mark fs

end Fragment

@[simp] theorem unbound_target (t : Target) : unbound (target t) = target t :=
  unbound_of_no_slots (slots_target t)

@[simp] theorem unbound_negation (negated : Bool) :
    unbound (negation negated) = negation negated :=
  unbound_of_no_slots (slots_negation negated)

theorem unbound_itemSlots (vs : List Value) :
    unbound (itemSlots vs) = Fragment.join "," (List.replicate vs.length [Traversal.mark]) := by
  rw [itemSlots, unbound_join]
  congr 1
  refine List.eq_replicate_iff.2 ⟨by simp, fun f hf => ?_⟩
  obtain ⟨g, hg, rfl⟩ := List.mem_map.1 hf
  obtain ⟨i, hi, rfl⟩ := List.mem_mapIdx.1 hg
  rfl

/-- The values of a test are those of its criterion. -/
theorem bound_test (negated : Bool) (t : Test) :
    bound (test negated t) = (criterionSlots t.criterion).map Prod.snd := by
  rw [bound_eq_slots, slots_test]

end Sql

end QueryLayer
