import Mathlib.Data.List.Forall2

/-!
# Boolean formulas over occurrences

A formula has named leaves, and the same name may occur many times. What a
formula means is read at an assignment of truth values to the **occurrences**:
the leaves are numbered from left to right, and two formulas mean the same if
they agree under every assignment. Leaves that test the same thing are then
still told apart, so no law of the tests themselves is assumed.
-/

namespace QueryLayer

/-- A formula with leaves in `α`. -/
inductive Formula (α : Type) where
  | leaf (a : α)
  | not (f : Formula α)
  /-- Every one of the formulas. -/
  | all (fs : List (Formula α))
  /-- At least one of the formulas. -/
  | any (fs : List (Formula α))

namespace Formula

variable {α β γ : Type}

mutual

/-- The leaves, from left to right. -/
def leaves : Formula α → List α
  | .leaf a => [a]
  | .not f => leaves f
  | .all fs => leavesAll fs
  | .any fs => leavesAll fs

/-- The leaves of several formulas. -/
def leavesAll : List (Formula α) → List α
  | [] => []
  | f :: fs => leaves f ++ leavesAll fs

end

mutual

/-- The value under an assignment to occurrences, the first leaf being
occurrence `k`. -/
def value (ν : ℕ → Bool) (k : ℕ) : Formula α → Bool
  | .leaf _ => ν k
  | .not f => !value ν k f
  | .all fs => valueAll ν k fs
  | .any fs => valueAny ν k fs

/-- Every one of the formulas is true. -/
def valueAll (ν : ℕ → Bool) (k : ℕ) : List (Formula α) → Bool
  | [] => true
  | f :: fs => value ν k f && valueAll ν (k + f.leaves.length) fs

/-- One of the formulas is true. -/
def valueAny (ν : ℕ → Bool) (k : ℕ) : List (Formula α) → Bool
  | [] => false
  | f :: fs => value ν k f || valueAny ν (k + f.leaves.length) fs

end

/-- The value where each leaf is as true as it is by itself. -/
def holds (truth : α → Bool) (f : Formula α) : Bool :=
  f.value (fun k : ℕ => (f.leaves[k]?.map truth).getD false) 0

/-- Formulas that mean the same hold alike where their leaves do. -/
theorem holds_congr {f : Formula α} {g : Formula β} {truth : α → Bool} {truth' : β → Bool}
    (hleaves : f.leaves.map truth = g.leaves.map truth')
    (hvalue : ∀ ν, f.value ν 0 = g.value ν 0) : f.holds truth = g.holds truth' := by
  have htruth : (fun k : ℕ => (f.leaves[k]?.map truth).getD false) =
      fun k => (g.leaves[k]?.map truth').getD false := by
    funext k
    rw [← List.getElem?_map, hleaves, List.getElem?_map]
  rw [holds, holds, htruth, hvalue]

/-- A formula, or its negation. -/
def signed (negated : Bool) (f : Formula α) : Formula α := if negated then .not f else f

@[simp] theorem leaves_signed (negated : Bool) (f : Formula α) :
    (signed negated f).leaves = f.leaves := by
  cases negated <;> simp [signed, leaves]

@[simp] theorem value_signed (ν : ℕ → Bool) (k : ℕ) (negated : Bool) (f : Formula α) :
    (signed negated f).value ν k = (negated ^^ f.value ν k) := by
  cases negated <;> simp [signed, value]

/-- A conjunction of one formula means that formula. -/
theorem value_all_singleton (ν : ℕ → Bool) (k : ℕ) (f : Formula α) :
    value ν k (.all [f]) = value ν k f := by
  simp [value, valueAll]

theorem leaves_all_singleton (f : Formula α) : leaves (.all [f]) = leaves f := by
  simp [leaves, leavesAll]

/-- And so does each of several. -/
theorem leavesAll_map_all (fs : List (Formula α)) :
    leavesAll (fs.map fun f => .all [f]) = leavesAll fs := by
  induction fs with
  | nil => rfl
  | cons f fs ih => rw [List.map_cons, leavesAll, leavesAll, leaves_all_singleton, ih]

theorem valueAny_map_all (ν : ℕ → Bool) (k : ℕ) (fs : List (Formula α)) :
    valueAny ν k (fs.map fun f => .all [f]) = valueAny ν k fs := by
  induction fs generalizing k with
  | nil => rfl
  | cons f fs ih =>
    rw [List.map_cons, valueAny, valueAny, value_all_singleton, leaves_all_singleton, ih]

/-- Lists of formulas have the same values if their heads do, which hold as many
leaves, and their tails do behind those. -/
theorem values_cons {ν : ℕ → Bool} {k : ℕ} {f : Formula α} {g : Formula β}
    {fs : List (Formula α)} {gs : List (Formula β)} (hlength : f.leaves.length = g.leaves.length)
    (hhead : f.value ν k = g.value ν k)
    (htail : valueAll ν (k + g.leaves.length) fs = valueAll ν (k + g.leaves.length) gs ∧
      valueAny ν (k + g.leaves.length) fs = valueAny ν (k + g.leaves.length) gs) :
    valueAll ν k (f :: fs) = valueAll ν k (g :: gs) ∧
      valueAny ν k (f :: fs) = valueAny ν k (g :: gs) := by
  rw [valueAll, valueAll, valueAny, valueAny, hlength, hhead, htail.1, htail.2]
  exact ⟨rfl, rfl⟩

/-! ## Formulas of one shape

Two formulas are alike if they differ in their leaves only, and their leaves
are related one by one. Being alike is all that a translation of the leaves
has to show: the values agree, and the leaves correspond in order. -/

mutual

/-- The formulas differ in their leaves only, which are related by `R`. -/
def Alike (R : α → β → Prop) : Formula α → Formula β → Prop
  | .leaf a, .leaf b => R a b
  | .not f, .not g => Alike R f g
  | .all fs, .all gs => AlikeAll R fs gs
  | .any fs, .any gs => AlikeAll R fs gs
  | _, _ => False

/-- The formulas are alike one by one. -/
def AlikeAll (R : α → β → Prop) : List (Formula α) → List (Formula β) → Prop
  | [], [] => True
  | f :: fs, g :: gs => Alike R f g ∧ AlikeAll R fs gs
  | _, _ => False

end

variable {R : α → β → Prop}

mutual

/-- The leaves of formulas that are alike are related in order. -/
theorem Alike.forall₂_leaves : ∀ {f : Formula α} {g : Formula β}, Alike R f g →
    List.Forall₂ R f.leaves g.leaves
  | .leaf _, .leaf _, h => by simpa [leaves, Alike] using h
  | .not _, .not _, h => by
    rw [Alike] at h
    simpa [leaves] using h.forall₂_leaves
  | .all _, .all _, h => by
    rw [Alike] at h
    simpa [leaves] using h.forall₂_leavesAll
  | .any _, .any _, h => by
    rw [Alike] at h
    simpa [leaves] using h.forall₂_leavesAll

/-- The same for several formulas. -/
theorem AlikeAll.forall₂_leavesAll : ∀ {fs : List (Formula α)} {gs : List (Formula β)},
    AlikeAll R fs gs → List.Forall₂ R (leavesAll fs) (leavesAll gs)
  | [], [], _ => .nil
  | _ :: _, _ :: _, h => by
    obtain ⟨hf, hfs⟩ := h
    simpa [leavesAll] using List.rel_append hf.forall₂_leaves hfs.forall₂_leavesAll

end

theorem Alike.length_leaves {f : Formula α} {g : Formula β} (h : Alike R f g) :
    f.leaves.length = g.leaves.length :=
  h.forall₂_leaves.length_eq

mutual

/-- **Formulas that are alike mean the same.** -/
theorem Alike.value_eq (ν : ℕ → Bool) : ∀ (k : ℕ) {f : Formula α} {g : Formula β}, Alike R f g →
    f.value ν k = g.value ν k
  | _, .leaf _, .leaf _, _ => rfl
  | k, .not _, .not _, h => by
    rw [Alike] at h
    simp [value, h.value_eq ν k]
  | k, .all _, .all _, h => by
    rw [Alike] at h
    simpa [value] using (h.values_eq ν k).1
  | k, .any _, .any _, h => by
    rw [Alike] at h
    simpa [value] using (h.values_eq ν k).2

/-- The same for several formulas. -/
theorem AlikeAll.values_eq (ν : ℕ → Bool) : ∀ (k : ℕ) {fs : List (Formula α)}
    {gs : List (Formula β)}, AlikeAll R fs gs →
    valueAll ν k fs = valueAll ν k gs ∧ valueAny ν k fs = valueAny ν k gs
  | _, [], [], _ => ⟨rfl, rfl⟩
  | k, _ :: _, g :: _, h => by
    obtain ⟨hf, hfs⟩ := h
    exact values_cons hf.length_leaves (hf.value_eq ν k) (hfs.values_eq ν (k + g.leaves.length))

end

theorem AlikeAll.append {fs fs' : List (Formula α)} {gs gs' : List (Formula β)}
    (h : AlikeAll R fs gs) (h' : AlikeAll R fs' gs') : AlikeAll R (fs ++ fs') (gs ++ gs') := by
  induction fs generalizing gs with
  | nil =>
    cases gs with
    | nil => simpa using h'
    | cons g gs => simp [AlikeAll] at h
  | cons f fs ih =>
    cases gs with
    | nil => simp [AlikeAll] at h
    | cons g gs =>
      obtain ⟨hf, hfs⟩ := h
      exact ⟨hf, ih hfs⟩

theorem AlikeAll.map_not {fs : List (Formula α)} {gs : List (Formula β)} (h : AlikeAll R fs gs) :
    AlikeAll R (fs.map .not) (gs.map .not) := by
  induction fs generalizing gs with
  | nil =>
    cases gs with
    | nil => simp [AlikeAll]
    | cons g gs => simp [AlikeAll] at h
  | cons f fs ih =>
    cases gs with
    | nil => simp [AlikeAll] at h
    | cons g gs =>
      obtain ⟨hf, hfs⟩ := h
      exact ⟨by simpa [Alike] using hf, ih hfs⟩

theorem AlikeAll.isEmpty_eq {fs : List (Formula α)} {gs : List (Formula β)}
    (h : AlikeAll R fs gs) : fs.isEmpty = gs.isEmpty := by
  cases fs <;> cases gs <;> simp_all [AlikeAll]

/-! ## Formulas without empty groups -/

mutual

/-- Every leaf satisfies `P`, and no group is empty. -/
def Full (P : α → Prop) : Formula α → Prop
  | .leaf a => P a
  | .not f => Full P f
  | .all fs => fs ≠ [] ∧ FullAll P fs
  | .any fs => fs ≠ [] ∧ FullAll P fs

/-- The same for several formulas. -/
def FullAll (P : α → Prop) : List (Formula α) → Prop
  | [] => True
  | f :: fs => Full P f ∧ FullAll P fs

end

variable {P : α → Prop} {Q : β → Prop}

theorem FullAll.append {fs gs : List (Formula α)} (hf : FullAll P fs) (hg : FullAll P gs) :
    FullAll P (fs ++ gs) := by
  induction fs with
  | nil => exact hg
  | cons f fs ih => exact ⟨hf.1, ih hf.2⟩

theorem FullAll.map_not {fs : List (Formula α)} (h : FullAll P fs) : FullAll P (fs.map .not) := by
  induction fs with
  | nil => trivial
  | cons f fs ih => exact ⟨h.1, ih h.2⟩

theorem AlikeAll.ne_nil {fs : List (Formula α)} {gs : List (Formula β)} (h : AlikeAll R fs gs)
    (hfs : fs ≠ []) : gs ≠ [] := by
  rw [← List.isEmpty_eq_false_iff] at hfs ⊢
  rw [← h.isEmpty_eq, hfs]

mutual

/-- A formula is full if it is alike to one that is, and its leaves are as
they should be. -/
theorem Alike.full (hR : ∀ a b, R a b → P a → Q b) : ∀ {f : Formula α} {g : Formula β},
    Alike R f g → Full P f → Full Q g
  | .leaf _, .leaf _, h, hf => hR _ _ h hf
  | .not _, .not _, h, hf => by
    rw [Alike] at h
    exact h.full hR hf
  | .all _, .all _, h, hf => by
    rw [Alike] at h
    exact ⟨h.ne_nil hf.1, h.full hR hf.2⟩
  | .any _, .any _, h, hf => by
    rw [Alike] at h
    exact ⟨h.ne_nil hf.1, h.full hR hf.2⟩

/-- The same for several formulas. -/
theorem AlikeAll.full (hR : ∀ a b, R a b → P a → Q b) : ∀ {fs : List (Formula α)}
    {gs : List (Formula β)}, AlikeAll R fs gs → FullAll P fs → FullAll Q gs
  | [], [], _, _ => trivial
  | _ :: _, _ :: _, h, hf => by
    obtain ⟨hg, hgs⟩ := h
    exact ⟨hg.full hR hf.1, hgs.full hR hf.2⟩

end

end Formula

end QueryLayer
