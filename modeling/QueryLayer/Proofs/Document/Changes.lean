import QueryLayer.Document.Render
import QueryLayer.Proofs.Document.Shaped
import Mathlib.Data.List.Dedup

/-!
# Pairs put one after the other

Of pairs that are put under their keys one after the other, the last one of each
key stays (`Keyed.LastStay`), so as many stay as there are keys, and none is lost
exactly if no two meet. The changes of an update stand under two keys, the operator
and in it the path, and are put the same way (`lastStay_foldl_put`).
-/

namespace QueryLayer

/-! ## The last value of a key -/

namespace Keyed

variable {κ α : Type} [DecidableEq κ] {key : κ} {value : α} {pairs asked kept : List (κ × α)}

/-- The value of a key is that of its first pair. -/
theorem get?_eq_some_iff_append : get? key pairs = some value ↔
    ∃ before after, pairs = before ++ (key, value) :: after ∧ key ∉ before.map Prod.fst := by
  induction pairs with
  | nil => simp [get?]
  | cons p rest ih =>
    obtain ⟨k, v⟩ := p
    by_cases h : k = key
    · subst h
      rw [get?, if_pos rfl]
      constructor
      · intro hv
        exact ⟨[], rest, by rw [Option.some.inj hv, List.nil_append], by simp⟩
      · rintro ⟨before, after, hpairs, hnot⟩
        cases before with
        | nil =>
          obtain ⟨hpair, -⟩ := List.cons.inj hpairs
          exact congrArg some (congrArg Prod.snd hpair)
        | cons q before =>
          obtain ⟨rfl, -⟩ := List.cons.inj hpairs
          exact absurd List.mem_cons_self hnot
    · rw [get?, if_neg h, ih]
      constructor
      · rintro ⟨before, after, rfl, hnot⟩
        exact ⟨(k, v) :: before, after, rfl, by simp [Ne.symm h, hnot]⟩
      · rintro ⟨before, after, hpairs, hnot⟩
        cases before with
        | nil => exact absurd (congrArg Prod.fst (List.cons.inj hpairs).1) h
        | cons q before =>
          obtain ⟨rfl, rfl⟩ := List.cons.inj hpairs
          exact ⟨before, after, rfl, fun hmem => hnot (List.mem_cons_of_mem _ hmem)⟩

/-- Pairs are put under their keys one after the other, and these stay: of each
key one, the last. -/
structure LastStay (asked kept : List (κ × α)) : Prop where
  once : (kept.map Prod.fst).Nodup
  last : ∀ key value, (key, value) ∈ kept ↔
    ∃ before after, asked = before ++ (key, value) :: after ∧ key ∉ after.map Prod.fst

theorem lastStay_of_get? (hnodup : (kept.map Prod.fst).Nodup)
    (hget : ∀ key, get? key kept = get? key asked.reverse) : LastStay asked kept := by
  refine ⟨hnodup, fun key value => ?_⟩
  rw [← get?_eq_some_iff hnodup, hget, get?_eq_some_iff_append]
  constructor
  · rintro ⟨before, after, hasked, hnot⟩
    refine ⟨after.reverse, before.reverse, ?_, by simpa using hnot⟩
    rw [← asked.reverse_reverse, hasked]
    simp
  · rintro ⟨before, after, rfl, hnot⟩
    exact ⟨after.reverse, before.reverse, by simp, by simpa using hnot⟩

theorem lastStay_ofPairs : LastStay asked (ofPairs asked) :=
  lastStay_of_get? nodup_keys_ofPairs fun _ => get?_ofPairs

namespace LastStay

omit [DecidableEq κ] in
/-- What stays was asked for. -/
theorem subset (h : LastStay asked kept) : kept ⊆ asked := by
  rintro ⟨key, value⟩ hmem
  obtain ⟨before, after, rfl, -⟩ := (h.last key value).1 hmem
  simp

/-- A key that was asked for stays. -/
theorem keys_subset (h : LastStay asked kept) : asked.map Prod.fst ⊆ kept.map Prod.fst := by
  intro key hkey
  have hsome : get? key asked.reverse ≠ none := by
    rw [Ne, get?_eq_none_iff, List.map_reverse, List.mem_reverse]
    exact not_not_intro hkey
  obtain ⟨value, hvalue⟩ := Option.ne_none_iff_exists'.1 hsome
  obtain ⟨before, after, hasked, hnot⟩ := get?_eq_some_iff_append.1 hvalue
  have hmem : (key, value) ∈ kept := by
    refine (h.last key value).2 ⟨after.reverse, before.reverse, ?_, by simpa using hnot⟩
    rw [← asked.reverse_reverse, hasked]
    simp
  exact List.mem_map_of_mem hmem

/-- As many pairs stay as there are keys. -/
theorem length_eq (h : LastStay asked kept) :
    kept.length = (asked.map Prod.fst).dedup.length := by
  have hperm : (kept.map Prod.fst).Perm (asked.map Prod.fst).dedup := by
    refine (List.perm_ext_iff_of_nodup h.once (List.nodup_dedup _)).2 fun key => ?_
    rw [List.mem_dedup]
    exact ⟨fun hkey => List.map_subset _ h.subset hkey, fun hkey => h.keys_subset hkey⟩
  rw [← hperm.length_eq, List.length_map]

/-- **None is lost exactly if no two meet.** -/
theorem length_eq_iff (h : LastStay asked kept) :
    kept.length = asked.length ↔ (asked.map Prod.fst).Nodup := by
  have hkeys : (asked.map Prod.fst).length = asked.length := List.length_map _
  rw [h.length_eq, ← List.dedup_eq_self, ← hkeys]
  constructor
  · exact (List.dedup_sublist _).eq_of_length
  · exact congrArg List.length

omit [DecidableEq κ] in
/-- Keys and values may be renamed, if the keys stay apart. -/
theorem map {κ' α' : Type} {f : κ → κ'} (hf : Function.Injective f) (g : α → α')
    (h : LastStay asked kept) : LastStay (asked.map (Prod.map f g)) (kept.map (Prod.map f g)) := by
  have hfst : ∀ ps : List (κ × α), (ps.map (Prod.map f g)).map Prod.fst = (ps.map Prod.fst).map f := by
    intro ps
    simp
  refine ⟨by rw [hfst]; exact h.once.map hf, fun key value => ?_⟩
  -- a key that comes later under its new name came later before, as no other has that name
  constructor
  · intro hmem
    obtain ⟨⟨k, v⟩, hkv, hpair⟩ := List.mem_map.1 hmem
    cases hpair
    obtain ⟨before, after, rfl, hnot⟩ := (h.last k v).1 hkv
    refine ⟨before.map (Prod.map f g), after.map (Prod.map f g), by simp, ?_⟩
    rw [hfst, List.mem_map_of_injective hf]
    exact hnot
  · rintro ⟨before, after, hasked, hnot⟩
    obtain ⟨us, vs, rfl, -, hvs⟩ := List.map_eq_append_iff.1 hasked
    obtain ⟨⟨k, v⟩, ws, rfl, hpair, rfl⟩ := List.map_eq_cons_iff.1 hvs
    cases hpair
    rw [hfst, List.mem_map_of_injective hf] at hnot
    exact List.mem_map.2 ⟨(k, v), (h.last k v).2 ⟨us, ws, rfl, hnot⟩, rfl⟩

end LastStay

/-- A put leaves each key once. -/
theorem nodup_keys_put (h : (pairs.map Prod.fst).Nodup) :
    ((put key value pairs).map Prod.fst).Nodup := by
  rw [map_fst_put]
  split
  · exact h
  · next hnew => exact List.concat_eq_append ▸ (List.nodup_concat _ _).2 ⟨hnew, h⟩

theorem mem_put {p : κ × α} (h : p ∈ put key value pairs) : p = (key, value) ∨ p ∈ pairs := by
  induction pairs with
  | nil => exact .inl (List.mem_singleton.1 h)
  | cons q rest ih =>
    obtain ⟨k, v⟩ := q
    rw [put] at h
    split at h
    · next hk =>
      subst hk
      exact (List.mem_cons.1 h).imp_right (List.mem_cons_of_mem _)
    · rcases List.mem_cons.1 h with rfl | h
      · exact .inr List.mem_cons_self
      · exact (ih h).imp_right (List.mem_cons_of_mem _)

end Keyed

namespace Document

/-! ## Changes by operator and path -/

namespace Changes

variable {cs : Changes} {op op' : UpdateOperator} {path path' : String} {v : Value}

/-- The operand of an operator at a path. -/
def operand? (cs : Changes) (op : UpdateOperator) (path : String) : Option Value :=
  (Keyed.get? op cs).bind (Keyed.get? path)

/-- The changes as pairs of keys and operands. -/
def pairs (cs : Changes) : List ((UpdateOperator × String) × Value) :=
  cs.flatMap fun p => p.2.map fun f => ((p.1, f.1), f.2)

/-- Each operator stands once, and each path once under it. -/
structure Distinct (cs : Changes) : Prop where
  operators : (cs.map Prod.fst).Nodup
  paths : ∀ p ∈ cs, (p.2.map Prod.fst).Nodup

theorem operand?_put_self : (cs.put op path v).operand? op path = some v := by
  rw [operand?, put, Keyed.get?_put_self, Option.bind_some, Keyed.get?_put_self]

theorem operand?_put_of_ne (h : (op', path') ≠ (op, path)) :
    (cs.put op path v).operand? op' path' = cs.operand? op' path' := by
  by_cases hop : op' = op
  · subst hop
    have hpath : path' ≠ path := fun hpath => h (by rw [hpath])
    rw [operand?, put, Keyed.get?_put_self, Option.bind_some, Keyed.get?_put_of_ne hpath, operand?]
    -- an operator that was not there yet had no operand at any path
    cases Keyed.get? op' cs <;> rfl
  · rw [operand?, put, Keyed.get?_put_of_ne hop, operand?]

theorem Distinct.put (h : cs.Distinct) : (cs.put op path v).Distinct := by
  refine ⟨Keyed.nodup_keys_put h.operators, fun p hp => ?_⟩
  rcases Keyed.mem_put hp with rfl | hp
  · refine Keyed.nodup_keys_put ?_
    cases hget : Keyed.get? op cs with
    | none => exact List.nodup_nil
    | some fields => exact h.paths _ (Keyed.mem_of_get?_eq_some hget)
  · exact h.paths p hp

theorem mem_pairs (h : cs.Distinct) :
    ((op, path), v) ∈ cs.pairs ↔ cs.operand? op path = some v := by
  rw [operand?, Option.bind_eq_some_iff]
  simp only [pairs, List.mem_flatMap, List.mem_map, Prod.mk.injEq]
  constructor
  · rintro ⟨⟨o, fields⟩, hfields, ⟨n, w⟩, hf, ⟨rfl, rfl⟩, rfl⟩
    exact ⟨fields, (Keyed.get?_eq_some_iff h.operators).2 hfields,
      (Keyed.get?_eq_some_iff (h.paths _ hfields)).2 hf⟩
  · rintro ⟨fields, hget, hpath⟩
    exact ⟨(op, fields), Keyed.mem_of_get?_eq_some hget, (path, v),
      Keyed.mem_of_get?_eq_some hpath, ⟨rfl, rfl⟩, rfl⟩

theorem nodup_keys_pairs (h : cs.Distinct) : (cs.pairs.map Prod.fst).Nodup := by
  obtain ⟨hoperators, hpaths⟩ := h
  have hkeys : cs.pairs.map Prod.fst = cs.flatMap fun p => (p.2.map Prod.fst).map (p.1, ·) := by
    simp only [pairs, List.map_flatMap, List.map_map]
    rfl
  rw [hkeys, List.nodup_flatMap]
  -- under one operator the paths differ, and between two operators the keys do
  refine ⟨fun p hp => (hpaths p hp).map (Prod.mk_right_injective p.1), ?_⟩
  refine (List.pairwise_map.1 hoperators).imp fun hne => ?_
  refine List.disjoint_left.2 fun key hp hq => ?_
  obtain ⟨_, _, rfl⟩ := List.mem_map.1 hp
  obtain ⟨_, _, hkey⟩ := List.mem_map.1 hq
  exact hne (congrArg Prod.fst hkey).symm

end Changes

/-- The operand of a change under its operator and path. -/
def FieldChange.pair (c : FieldChange) : (UpdateOperator × String) × Value :=
  ((c.operator, c.path), c.value)

/-- The changes of an update are put one after the other. -/
theorem distinct_foldl_put (changes : List FieldChange) :
    Changes.Distinct (changes.foldl (fun acc c => acc.put c.operator c.path c.value) []) := by
  induction changes using List.reverseRecOn with
  | nil => exact ⟨List.nodup_nil, by simp⟩
  | append_singleton changes c ih =>
    rw [List.foldl_append]
    exact ih.put

theorem operand?_foldl_put (changes : List FieldChange) (op : UpdateOperator) (path : String) :
    Changes.operand? (changes.foldl (fun acc c => acc.put c.operator c.path c.value) []) op path =
      Keyed.get? (op, path) (changes.map FieldChange.pair).reverse := by
  induction changes using List.reverseRecOn with
  | nil => rfl
  | append_singleton changes c ih =>
    rw [List.foldl_append, List.map_append, List.map_singleton, List.reverse_concat]
    change Changes.operand? (Changes.put _ c.operator c.path c.value) op path = _
    by_cases h : (op, path) = (c.operator, c.path)
    · obtain ⟨rfl, rfl⟩ := Prod.mk.inj h
      rw [Changes.operand?_put_self, FieldChange.pair, Keyed.get?, if_pos rfl]
    · rw [Changes.operand?_put_of_ne h, ih, FieldChange.pair, Keyed.get?, if_neg (Ne.symm h)]

/-- **Of the changes of an update the last one at each operator and path stays.** -/
theorem lastStay_foldl_put (changes : List FieldChange) :
    Keyed.LastStay (changes.map FieldChange.pair)
      (Changes.pairs (changes.foldl (fun acc c => acc.put c.operator c.path c.value) [])) := by
  have hdistinct := distinct_foldl_put changes
  -- both are known by what they hold at each key
  refine Keyed.lastStay_of_get? (Changes.nodup_keys_pairs hdistinct) fun key => ?_
  obtain ⟨op, path⟩ := key
  rw [← operand?_foldl_put]
  ext v
  rw [Keyed.get?_eq_some_iff (Changes.nodup_keys_pairs hdistinct), Changes.mem_pairs hdistinct]

end Document

end QueryLayer
