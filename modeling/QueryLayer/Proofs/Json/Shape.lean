import QueryLayer.Json.Shape
import QueryLayer.Proofs.Json.Reading

/-!
# Records and variants read back

A record with distinct keys gives back the values it was made of, absent ones
included (`recordFields_record`), and a tagged variant gives back its name and
the record under the tag (`taggedVariant_record`). The lemmas on the shapes of
fields say when reading undoes writing for all of the shape at once; each
reader of entries and statements is then settled field by field.
-/

namespace QueryLayer

namespace Json

variable {α : Type} {read : Json → Option α} {write : α → Json}

/-! ## Records -/

theorem filterMap_filter_key (key : String) (ms : List (String × Option Json)) :
    (ms.filterMap fun m => m.2.map (m.1, ·)).filter (·.1 == key) =
      (ms.filter (·.1 == key)).filterMap fun m => m.2.map (m.1, ·) := by
  induction ms with
  | nil => rfl
  | cons m ms ih =>
    obtain ⟨k, _ | j⟩ := m <;> by_cases h : k == key <;> simp [h, ih]

/-- With distinct keys, a key stands with its own value only. -/
theorem filter_key_eq_singleton {ms : List (String × Option Json)} (hkeys : (ms.map (·.1)).Nodup)
    {m : String × Option Json} (hm : m ∈ ms) : ms.filter (·.1 == m.1) = [m] := by
  induction ms with
  | nil => simp at hm
  | cons m' ms ih =>
    obtain ⟨hfresh, hkeys⟩ := List.nodup_cons.1 hkeys
    rcases List.mem_cons.1 hm with rfl | hm
    · have hrest : ms.filter (·.1 == m.1) = [] := by
        rw [List.filter_eq_nil_iff]
        intro n hn hkey
        exact hfresh (List.mem_map.2 ⟨n, hn, eq_of_beq hkey⟩)
      rw [List.filter_cons_of_pos (by simp), hrest]
    · have hne : (m'.1 == m.1) = false := by
        rw [beq_eq_false_iff_ne]
        intro heq
        exact hfresh (List.mem_map.2 ⟨m, hm, heq.symm⟩)
      rw [List.filter_cons_of_neg (by simp [hne])]
      exact ih hkeys hm

/-- Running a reader over written values gives what each of them gives. -/
theorem mapM_map_eq_some {β γ δ : Type} {f : γ → Option δ} {g : β → γ} {h : β → δ} {bs : List β}
    (hf : ∀ b ∈ bs, f (g b) = some (h b)) : (bs.map g).mapM f = some (bs.map h) := by
  induction bs with
  | nil => rfl
  | cons b bs ih =>
    rw [List.forall_mem_cons] at hf
    simp [hf.1, ih hf.2]

/-- **A record with distinct keys** gives back the values of its fields. -/
theorem recordFields_record {ms : List (String × Option Json)} (hkeys : (ms.map (·.1)).Nodup) :
    recordFields (ms.map (·.1)) (record ms) = some (ms.map (·.2)) := by
  show pick (ms.map (·.1)) (ms.filterMap fun m => m.2.map (m.1, ·)) = _
  refine mapM_map_eq_some fun m hm => ?_
  rw [filterMap_filter_key, filter_key_eq_singleton hkeys hm]
  obtain ⟨k, _ | j⟩ := m <;> rfl

/-! ## Fields -/

@[simp] theorem asText_string (s : String) : asText (.string s) = some s := rfl

@[simp] theorem required_some (j : Json) : required read (some j) = read j := rfl

@[simp] theorem listed_some (j : Json) : listed read (some j) = items read j := rfl

/-- An optional field keeps its value, and keeps being absent, if no value is
written as null. -/
theorem optional_map {o : Option α} (hread : ∀ a ∈ o, read (write a) = some a)
    (hnull : ∀ a ∈ o, write a ≠ .null) : optional read (o.map write) = some o := by
  cases o with
  | none => rfl
  | some a =>
    have hsome : optional read (some (write a)) = (read (write a)).map some := by
      unfold optional
      split
      · simp at *
      · next heq => exact absurd (Option.some.inj heq) (hnull a rfl)
      · next heq => rw [Option.some.inj heq]
    rw [Option.map_some, hsome, hread a rfl]
    rfl

/-- An optional text. -/
@[simp] theorem optional_asText (o : Option String) : optional asText (o.map .string) = some o :=
  optional_map (fun _ _ => rfl) (fun _ _ => by simp)

/-- A list keeps its items. -/
theorem items_map {as : List α} (hread : ∀ a ∈ as, read (write a) = some a) :
    items read (.array (as.map write)) = some as := by
  rw [items, mapM_map_eq_some hread, List.map_id']

/-! ## Variants -/

/-- **A tagged variant** gives back its name and what it carries. -/
theorem taggedVariant_record {tag name : String} {names : List String}
    {ms : List (String × Option Json)}
    (hsound : (record ((tag, some (.string name)) :: ms)).isSound = true)
    (hname : name ∈ names) (htag : tag ∉ ms.map (·.1)) (inner : Bool) :
    taggedVariant inner tag names (record ((tag, some (.string name)) :: ms)) =
      some (name, record ms) := by
  have hother : ∀ m ∈ ms.filterMap fun m => m.2.map (m.1, ·), m.1 ≠ tag := by
    intro m hm heq
    obtain ⟨m', hm', hmap⟩ := List.mem_filterMap.1 hm
    obtain ⟨j, -, rfl⟩ := Option.map_eq_some_iff.1 hmap
    exact htag (List.mem_map.2 ⟨m', hm', heq⟩)
  have htagged : (ms.filterMap fun m => m.2.map (m.1, ·)).filter (·.1 == tag) = [] :=
    List.filter_eq_nil_iff.2 fun m hm h => hother m hm (eq_of_beq h)
  have hcarried : ((ms.filterMap fun m => m.2.map (m.1, ·)).filter (·.1 != tag)) =
      ms.filterMap fun m => m.2.map (m.1, ·) :=
    List.filter_eq_self.2 fun m hm => by simpa using hother m hm
  simp only [taggedVariant, hsound]
  simp [record, variantName, hname, htagged, hcarried]

/-! ## Depth -/

theorem depth_lt_depth_array {j : Json} {js : List Json} (hj : j ∈ js) :
    j.depth < (array js).depth := by
  rw [depth, Nat.lt_succ_iff]
  induction js with
  | nil => simp at hj
  | cons i js ih =>
    rw [depthItems]
    rcases List.mem_cons.1 hj with rfl | hj
    · exact Nat.le_max_left ..
    · exact Nat.le_trans (ih hj) (Nat.le_max_right ..)

theorem depth_lt_depth_object {m : String × Json} {ms : List (String × Json)} (hm : m ∈ ms) :
    m.2.depth < (object ms).depth := by
  rw [depth, Nat.lt_succ_iff]
  induction ms with
  | nil => simp at hm
  | cons n ms ih =>
    rw [depthMembers]
    rcases List.mem_cons.1 hm with rfl | hm
    · exact Nat.le_max_left ..
    · exact Nat.le_trans (ih hm) (Nat.le_max_right ..)

/-- A field of a record is less deep than the record. -/
theorem depth_lt_depth_record {k : String} {j : Json} {ms : List (String × Option Json)}
    (hm : (k, some j) ∈ ms) : j.depth < (record ms).depth := by
  have hmem : (k, j) ∈ ms.filterMap fun m => m.2.map (m.1, ·) :=
    List.mem_filterMap.2 ⟨(k, some j), hm, rfl⟩
  exact depth_lt_depth_object hmem

end Json

end QueryLayer
