import QueryLayer.Proofs.Sql.LegibleStatement

/-!
# What binds no value

Most of what stands around the clauses of a search binds nothing: the columns of a
result, and the definition of a table up to its defaults. Literals are written out.
-/

namespace QueryLayer

namespace Sql

open Fragment

variable {d : Dialect}

@[simp] theorem slots_projections (ps : List Projection) : slots (projections ps) = [] := by
  unfold projections
  split
  · rfl
  · have hone : ∀ p, slots (projection p) = [] := by
      intro p
      unfold projection
      split <;> simp
    simp [List.flatMap_map, hone]

/-! ## Tables -/

mutual

/-- Literals bind nothing. -/
theorem slots_inlineValue : ∀ v : Value, slots (inlineValue v) = []
  | .null | .bool true | .bool false | .int _ | .float _ => rfl
  | .text s => by
    rw [inlineValue]
    rfl
  | .list vs => by
    rw [inlineValue]
    simp [List.flatMap_eq_nil_iff.2 (slots_inlineValues vs)]
  | .blob bytes => by
    rw [inlineValue]
    rfl

theorem slots_inlineValues : ∀ vs : List Value, ∀ f ∈ inlineValues vs, slots f = []
  | [], f, hf => by simp [inlineValues] at hf
  | v :: vs, f, hf => by
    rw [inlineValues] at hf
    rcases List.mem_cons.1 hf with rfl | hf
    · exact slots_inlineValue v
    · exact slots_inlineValues vs f hf

end

theorem slots_quotedValue (v : Value) : slots (quotedValue v) = [] := by
  unfold quotedValue
  split <;> rfl

/-- A default that is written out. -/
theorem slots_defaultValue (hd : d.defaultStyle = .inline) (t : DataType) (v : Value) :
    slots (defaultValue d t v) = [] := by
  rw [defaultValue, hd]
  by_cases ht : t.isTextual
  · simp [ht, slots_quotedValue]
  · simp [ht, slots_inlineValue]

/-- Options bind nothing. -/
@[simp] theorem slots_columnOption (d : Dialect) (o : ColumnOption) :
    slots (columnOption d o) = [] := by
  unfold columnOption
  split
  all_goals first
    | rfl
    | (split <;> rfl)

theorem slots_columnOptions (d : Dialect) (options : List ColumnOption) :
    slots (options.flatMap (columnOption d)) = [] := by
  simp [piecewise_slots.flatMap]

/-- Words that may be left out. -/
theorem slots_optional (present : Bool) (words : String) :
    slots (if present then [.text words] else []) = [] := by
  cases present <;> rfl

@[simp] theorem slots_inlineIndexes (d : Dialect) (collection : CollectionRef) (c : Column) :
    slots (inlineIndexes d collection c) = [] := by
  unfold inlineIndexes
  cases d.indexStyle with
  | separate => rfl
  | inline =>
    rw [piecewise_slots.flatMap, List.flatMap_eq_nil_iff]
    intro o _
    cases o <;> rfl

theorem slots_separateIndexes (d : Dialect) (collection : CollectionRef) (c : Column) :
    ∀ f ∈ separateIndexes d collection c, slots f = [] := by
  intro f hf
  unfold separateIndexes at hf
  cases hs : d.indexStyle with
  | inline => simp [hs] at hf
  | separate =>
    simp only [hs] at hf
    obtain ⟨o, -, ho⟩ := List.mem_filterMap.1 hf
    obtain ⟨⟨ending, words⟩, -, rfl⟩ := Option.map_eq_some_iff.1 ho
    simp

theorem slots_referenceAction (event : String) (action : Option ForeignKeyAction) :
    slots (referenceAction event action) = [] := by
  unfold referenceAction
  split <;> rfl

theorem slots_foreignKey {collection : CollectionRef} {field : String} {key : ForeignKey}
    {f : Fragment} (h : foreignKey d collection field key = .ok f) : slots f = [] := by
  unfold foreignKey at h
  split at h
  · cases h
  · cases h
    simp [slots_referenceAction]

theorem slots_engine (d : Dialect) (s : Create) : slots (engine d s) = [] := by
  unfold engine
  split
  · split <;> rfl
  · rfl

theorem slots_drop {target : DropTarget} {f : Fragment} (h : drop d target = .ok f) :
    slots f = [] := by
  cases target with
  | collection c =>
    cases h
    simp
  | database name =>
    unfold drop at h
    cases he : d.environment with
    | embedded => simp [he] at h
    | server =>
      simp only [he, Except.ok.injEq] at h
      subst h
      rfl

end Sql

end QueryLayer
