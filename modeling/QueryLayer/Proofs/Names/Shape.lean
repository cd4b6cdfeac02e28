import QueryLayer.Proofs.Names.Nameless
import QueryLayer.Proofs.Sql.Trimmed
import QueryLayer.Sql.Render

/-!
# The shape of a command

The shape of a fragment is what is left of it without the content of its names
and literals and without its bound values: the words and marks of SQL, and where
a name, a literal or a placeholder stands among them. What is written for a plan,
a column or an assignment has the shape of what is written for the nameless one.
-/

namespace QueryLayer

namespace Sql

open Fragment

/-! ## Pieces and fragments -/

namespace Piece

/-- The piece without its content. -/
def shape : Piece → Piece
  | .text s => .text s
  | .name _ => .name anyName
  | .literal _ => .literal []
  | .slot s _ => .slot s .null

end Piece

namespace Fragment

/-- The fragment without the content of its names, literals and slots. -/
def shape (f : Fragment) : Fragment := f.map Piece.shape

@[simp] theorem shape_nil : shape [] = [] := rfl

theorem piecewise_shape : Piecewise shape := piecewise_map Piece.shape

@[simp] theorem shape_append (f g : Fragment) : shape (f ++ g) = shape f ++ shape g :=
  piecewise_shape.append f g

@[simp] theorem shape_text_cons (s : String) (f : Fragment) :
    shape (.text s :: f) = .text s :: shape f := rfl

@[simp] theorem shape_name_cons (n : String) (f : Fragment) :
    shape (.name n :: f) = .name anyName :: shape f := rfl

@[simp] theorem shape_literal_cons (content : List Char) (f : Fragment) :
    shape (.literal content :: f) = .literal [] :: shape f := rfl

@[simp] theorem shape_slot_cons (s : Slot) (v : Value) (f : Fragment) :
    shape (.slot s v :: f) = .slot s .null :: shape f := rfl

@[simp] theorem shape_join (mark : String) (fs : List Fragment) :
    shape (join mark fs) = join mark (fs.map shape) :=
  piecewise_shape.join mark fs

end Fragment

/-! ## Clauses -/

@[simp] theorem shape_fieldName (f : FieldRef) : shape (fieldName f.nameless) = shape (fieldName f) := by
  obtain ⟨database, collection, field⟩ := f
  cases database <;> cases collection <;> rfl

@[simp] theorem shape_target (t : Target) : shape (target t.nameless) = shape (target t) := by
  obtain ⟨field, aggregation⟩ := t
  cases aggregation <;> simp [target, Target.nameless]

@[simp] theorem shape_table (d : Dialect) (c : CollectionRef) :
    shape (d.table c.nameless) = shape (d.table c) := by
  unfold Dialect.table
  cases d.environment <;> rfl

@[simp] theorem shape_test (negated : Bool) (t : Test) :
    shape (test negated t.nameless) = shape (test negated t) := by
  obtain ⟨field, criterion⟩ := t
  cases criterion <;> simp [test, comparison, Test.nameless]

mutual

/-- Names play no role for the operands of a filter. -/
theorem shape_operands : ∀ (negated : Bool) (p : Predicate),
    (operands negated p.nameless).map shape = (operands negated p).map shape
  | negated, .test t => by simp [operands, Predicate.nameless]
  | negated, .not p => by
    rw [Predicate.nameless, operands, operands]
    exact shape_operands (!negated) p
  | negated, .all ps => by
    simp [Predicate.nameless, operands, bracket, shape_operandsAll false ps]
  | negated, .any ps => by
    simp [Predicate.nameless, operands, bracket, shape_operandsAll false ps]

theorem shape_operandsAll : ∀ (negated : Bool) (ps : List Predicate),
    (operandsAll negated (Predicate.namelessAll ps)).map shape = (operandsAll negated ps).map shape
  | _, [] => rfl
  | negated, p :: ps => by
    rw [Predicate.namelessAll, operandsAll, operandsAll, List.map_append, List.map_append,
      shape_operands negated p, shape_operandsAll negated ps]

end

@[simp] theorem shape_filter (ps : List Predicate) :
    shape (filter (ps.map Predicate.nameless)) = shape (filter ps) := by
  have hoperands := shape_operandsAll false ps
  rw [Predicate.namelessAll_eq_map] at hoperands
  unfold filter
  cases hf : operandsAll false (ps.map Predicate.nameless) with
  | nil =>
    rw [hf] at hoperands
    rw [List.map_eq_nil_iff.1 hoperands.symm]
  | cons f fs =>
    cases hg : operandsAll false ps with
    | nil => simp [hf, hg] at hoperands
    | cons g gs =>
      rw [hf, hg] at hoperands
      simp only [shape_text_cons, shape_join, hoperands]

/-- Fragments of numbered things whose shapes do not depend on their names. -/
theorem map_shape_mapIdx {α : Type} {g : ℕ → α → Fragment} {k : α → α}
    (h : ∀ i x, shape (g i (k x)) = shape (g i x)) (xs : List α) :
    ((xs.map k).mapIdx g).map shape = (xs.mapIdx g).map shape := by
  refine List.ext_getElem? fun i => ?_
  simp only [List.getElem?_map, List.getElem?_mapIdx, Option.map_map]
  exact Option.map_congr fun x _ => h i x

@[simp] theorem shape_column (d : Dialect) (c : Option CollectionRef) (name : String) :
    shape (column d (c.map CollectionRef.nameless) anyName) = shape (column d c name) := by
  cases c <;> simp [column]

theorem shape_joinPairs (d : Dialect) (pairs : List JoinPair) :
    shape (joinPairs d (pairs.map JoinPair.nameless)) = shape (joinPairs d pairs) := by
  unfold joinPairs
  rw [piecewise_shape.flatten, piecewise_shape.flatten, List.flatMap_def, List.flatMap_def,
    map_shape_mapIdx]
  intro i p
  have hleft := shape_column d (some p.collection1) p.column1
  have hright := shape_column d p.collection2 p.column2
  rw [Option.map_some] at hleft
  simp only [JoinPair.nameless, shape_text_cons, shape_append, hleft, hright]

@[simp] theorem shape_joins (d : Dialect) (js : List Join) :
    shape (joins d (js.map Join.nameless)) = shape (joins d js) := by
  have hjoin : ∀ j : Join, shape (join d j.nameless) = shape (join d j) := by
    intro j
    simp only [join, Join.nameless, shape_text_cons, shape_append, shape_table, shape_joinPairs]
  simp [joins, Function.comp_def, hjoin]

@[simp] theorem shape_groupBy (ts : List Target) :
    shape (groupBy (ts.map Target.nameless)) = shape (groupBy ts) := by
  cases ts with
  | nil => rfl
  | cons t ts => simp [groupBy, Function.comp_def]

@[simp] theorem shape_orderBy (d : Dialect) (c : Clauses) :
    shape (orderBy d c.nameless) = shape (orderBy d c) := by
  obtain ⟨joins, groups, sorts, window⟩ := c
  cases sorts with
  | nil => rfl
  | cons k ks => simp [orderBy, Clauses.nameless, SortKey.nameless, sortKey, Function.comp_def]

/-- **The clauses of a plan have a shape without names.** -/
@[simp] theorem shape_clauses (d : Dialect) (p : Plan) :
    shape (clauses d p.nameless) = shape (clauses d p) := by
  have horder := shape_orderBy d p.toClauses
  simp only [clauses, shape_append, horder, Plan.nameless, shape_filter]
  simp [Clauses.nameless]

/-! ## Searches and changes -/

@[simp] theorem shape_projections (ps : List Projection) :
    shape (projections (ps.map Projection.nameless)) = shape (projections ps) := by
  have hone : ∀ p : Projection, shape (projection p.nameless) = shape (projection p) := by
    rintro ⟨t, label⟩
    cases label <;> simp [projection, Projection.nameless]
  cases ps with
  | nil => rfl
  | cons p ps => simp [projections, Function.comp_def, hone]

@[simp] theorem shape_assignment (a : Assignment) (v : Value) :
    shape (assignment a.nameless v) = shape (assignment a v) := by
  obtain ⟨field, value, operator⟩ := a
  cases operator <;> simp [assignment, Assignment.nameless]

end Sql

end QueryLayer
