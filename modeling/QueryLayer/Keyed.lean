/-!
# Lists of keys with values

A keyed list stands in the order in which its keys first came. Putting a key
that is there replaces its value and leaves it in its place.
-/

namespace QueryLayer

namespace Keyed

variable {κ α : Type} [DecidableEq κ]

/-- The list with the value of a key replaced, or the key added at the end. -/
def put (key : κ) (value : α) : List (κ × α) → List (κ × α)
  | [] => [(key, value)]
  | (k, v) :: rest => if k = key then (k, value) :: rest else (k, v) :: put key value rest

/-- The list of several pairs, put one after the other. -/
def ofPairs (pairs : List (κ × α)) : List (κ × α) :=
  pairs.foldl (fun acc p => put p.1 p.2 acc) []

/-- The value of a key. -/
def get? (key : κ) : List (κ × α) → Option α
  | [] => none
  | (k, v) :: rest => if k = key then some v else get? key rest

variable {key other : κ} {value : α} {pairs : List (κ × α)}

/-- A key that was put has the value that was put. -/
theorem get?_put_self : get? key (put key value pairs) = some value := by
  induction pairs with
  | nil => simp [put, get?]
  | cons p rest ih =>
    by_cases h : p.1 = key
    · simp [put, get?, h]
    · simp [put, get?, h, ih]

/-- Putting a key leaves the values of the other keys alone. -/
theorem get?_put_of_ne (h : other ≠ key) : get? other (put key value pairs) = get? other pairs := by
  induction pairs with
  | nil => simp [put, get?, h.symm]
  | cons p rest ih =>
    by_cases hp : p.1 = key
    · simp [put, get?, hp, h.symm]
    · simp [put, get?, hp, ih]

/-- Putting a key that is there keeps the order of the keys; a new key comes
last. -/
theorem map_fst_put :
    (put key value pairs).map Prod.fst =
      if key ∈ pairs.map Prod.fst then pairs.map Prod.fst else pairs.map Prod.fst ++ [key] := by
  induction pairs with
  | nil => simp [put]
  | cons p rest ih =>
    by_cases h : p.1 = key
    · simp [put, h]
    · have h' : ¬ key = p.1 := fun e => h e.symm
      by_cases hr : key ∈ rest.map Prod.fst
      · rw [if_pos hr] at ih
        rw [if_pos (by simp only [List.map_cons]; exact List.mem_cons_of_mem _ hr)]
        simp [put, h, ih]
      · rw [if_neg hr] at ih
        rw [if_neg (by simp only [List.map_cons, List.mem_cons, not_or]; exact ⟨h', hr⟩)]
        simp [put, h, ih]

/-- The first value of a key counts. -/
theorem get?_append {pairs' : List (κ × α)} :
    get? key (pairs ++ pairs') = (get? key pairs).or (get? key pairs') := by
  induction pairs with
  | nil => rfl
  | cons p rest ih =>
    by_cases h : p.1 = key
    · simp [get?, h]
    · simp [get?, h, ih]

theorem get?_eq_none_iff : get? key pairs = none ↔ key ∉ pairs.map Prod.fst := by
  induction pairs with
  | nil => simp [get?]
  | cons p rest ih =>
    by_cases h : p.1 = key
    · simp [get?, h]
    · have h' : ¬ key = p.1 := fun e => h e.symm
      simp [get?, h, h', ih]

theorem mem_of_get?_eq_some (h : get? key pairs = some value) : (key, value) ∈ pairs := by
  induction pairs with
  | nil => simp [get?] at h
  | cons p rest ih =>
    rw [get?] at h
    split at h
    · next hkey =>
      rw [← hkey, ← Option.some.inj h]
      exact List.mem_cons_self
    · exact List.mem_cons_of_mem _ (ih h)

/-- Where a key stands once, its pair is in the list if it has the value. -/
theorem get?_eq_some_iff (hnodup : (pairs.map Prod.fst).Nodup) :
    get? key pairs = some value ↔ (key, value) ∈ pairs := by
  induction pairs with
  | nil => simp [get?]
  | cons p rest ih =>
    rw [List.map_cons, List.nodup_cons] at hnodup
    by_cases h : p.1 = key
    · have hrest : (key, value) ∉ rest := fun hmem =>
        hnodup.1 (h ▸ List.mem_map_of_mem (f := Prod.fst) hmem)
      obtain ⟨k, v⟩ := p
      obtain rfl : k = key := h
      simp [get?, hrest, eq_comm]
    · obtain ⟨k, v⟩ := p
      have h' : ¬ key = k := fun e => h e.symm
      simp [get?, h, h', ih hnodup.2]

theorem ofPairs_concat (p : κ × α) : ofPairs (pairs ++ [p]) = put p.1 p.2 (ofPairs pairs) := by
  simp [ofPairs]

end Keyed

end QueryLayer
