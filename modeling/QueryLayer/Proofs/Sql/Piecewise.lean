import QueryLayer.Sql.Fragment

/-!
# Fragments read piece by piece

Much of what is said of a fragment is read off its pieces one after the other: its
text, its tokens, its slots, its quoted tokens, its words, its shape. Such a reading
is known as soon as it is known how it goes over a piece. Over fragments that were put
together it goes part by part, and over joined ones it meets the mark between each two
(`Piecewise.join`).
-/

namespace QueryLayer

namespace Sql

namespace Fragment

variable {f g : Fragment} {mark : String}

/-! ## Joined fragments -/

theorem join_singleton : join mark [f] = f := by simp [join]

theorem join_cons_cons (fs : List Fragment) :
    join mark (f :: g :: fs) = f ++ .text mark :: join mark (g :: fs) := by
  simp [join, List.intercalate]

/-- Fragments behind the first one, each behind its mark. -/
theorem join_cons (mark : String) (f : Fragment) (fs : List Fragment) :
    join mark (f :: fs) = f ++ fs.flatMap (.text mark :: ·) := by
  induction fs generalizing f with
  | nil => simp [join_singleton]
  | cons g fs ih => rw [join_cons_cons, ih, List.flatMap_cons, List.cons_append]

/-! ## Readings -/

/-- The reading takes the pieces of a fragment one after the other. -/
structure Piecewise {β : Type} (r : Fragment → List β) : Prop where
  nil : r [] = []
  append (f g : Fragment) : r (f ++ g) = r f ++ r g

variable {α β : Type} {r : Fragment → List β} {fs : List Fragment}

theorem piecewise_flatMap (k : Piece → List β) : Piecewise fun f => f.flatMap k :=
  ⟨rfl, fun _ _ => List.flatMap_append⟩

theorem piecewise_filterMap (k : Piece → Option β) : Piecewise fun f => f.filterMap k :=
  ⟨rfl, fun _ _ => List.filterMap_append⟩

theorem piecewise_map (k : Piece → β) : Piecewise fun f => f.map k := ⟨rfl, fun _ _ => List.map_append⟩

/-- Fragments that are read in the same way wherever they stand. -/
theorem flatMap_mapIdx_of_const {k : Nat → α → Fragment} {h : α → List β}
    (hk : ∀ i x, r (k i x) = h x) (xs : List α) : (xs.mapIdx k).flatMap r = xs.flatMap h := by
  induction xs generalizing k with
  | nil => rfl
  | cons x xs ih =>
    rw [List.mapIdx_cons, List.flatMap_cons, List.flatMap_cons, hk, ih fun i x => hk (i + 1) x]

namespace Piecewise

theorem flatten (hr : Piecewise r) (fs : List Fragment) : r fs.flatten = fs.flatMap r := by
  induction fs with
  | nil => exact hr.nil
  | cons f fs ih => rw [List.flatten_cons, hr.append, ih, List.flatMap_cons]

theorem flatMap (hr : Piecewise r) (k : α → Fragment) (xs : List α) :
    r (xs.flatMap k) = xs.flatMap fun x => r (k x) := by
  rw [List.flatMap_def, hr.flatten, List.flatMap_map]

/-- **Joined fragments are read one by one**, and between each two their mark. -/
theorem join (hr : Piecewise r) (mark : String) : ∀ fs : List Fragment,
    r (Fragment.join mark fs) = (r [.text mark]).intercalate (fs.map r)
  | [] => hr.nil
  | [f] => by simp [join_singleton, List.intercalate]
  | f :: g :: fs => by
    rw [join_cons_cons, hr.append, ← List.singleton_append, hr.append, hr.join mark (g :: fs)]
    simp [List.intercalate]

/-- A mark in which nothing is read may as well not be there. -/
theorem join_of_silent (hr : Piecewise r) (hmark : r [.text mark] = []) (fs : List Fragment) :
    r (Fragment.join mark fs) = fs.flatMap r := by
  rw [hr.join, hmark, List.flatMap_def]
  induction fs with
  | nil => rfl
  | cons f fs ih => cases fs <;> simp_all [List.intercalate]

variable {known : List β}

theorem flatten_subset (hr : Piecewise r) (h : ∀ f ∈ fs, r f ⊆ known) : r fs.flatten ⊆ known := by
  intro x hx
  rw [hr.flatten] at hx
  obtain ⟨f, hf, hx⟩ := List.mem_flatMap.1 hx
  exact h f hf hx

/-- What is read in joined fragments is read in one of them or in the mark. -/
theorem mem_join (hr : Piecewise r) {x : β} (hx : x ∈ r (Fragment.join mark fs)) :
    x ∈ r [.text mark] ∨ ∃ f ∈ fs, x ∈ r f := by
  cases fs with
  | nil => simp [Fragment.join, hr.nil] at hx
  | cons f fs =>
    rw [join_cons, hr.append, hr.flatMap] at hx
    rcases List.mem_append.1 hx with hx | hx
    · exact .inr ⟨f, by simp, hx⟩
    · obtain ⟨g, hg, hx⟩ := List.mem_flatMap.1 hx
      rw [← List.singleton_append, hr.append] at hx
      exact (List.mem_append.1 hx).imp_right fun hx => ⟨g, by simp [hg], hx⟩

theorem join_subset (hr : Piecewise r) (hmark : r [.text mark] ⊆ known)
    (h : ∀ f ∈ fs, r f ⊆ known) : r (Fragment.join mark fs) ⊆ known := by
  intro x hx
  rcases hr.mem_join hx with hx | ⟨f, hf, hx⟩
  · exact hmark hx
  · exact h f hf hx

end Piecewise

/-! ## The text -/

theorem piecewise_write (q : Text.Quotes) : Piecewise (write q) := piecewise_flatMap (Piece.write q)

theorem write_nil (q : Text.Quotes) : write q [] = [] := rfl

theorem write_cons (q : Text.Quotes) (p : Piece) (f : Fragment) :
    write q (p :: f) = p.write q ++ write q f := rfl

theorem write_join (q : Text.Quotes) (mark : String) (fs : List Fragment) :
    write q (join mark fs) = List.intercalate mark.toList (fs.map (write q)) := by
  rw [(piecewise_write q).join, write_cons, write_nil, List.append_nil, Piece.write]

end Fragment

end Sql

end QueryLayer
