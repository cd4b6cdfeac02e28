import QueryLayer.Document.Render
import QueryLayer.Proofs.Meaning.Entries

/-!
# Match filters

How the document store reads a filter. A filter is an object, and a document is
taken if it satisfies every member. A member whose name begins with a dollar
sign is an operator over an array of filters: `$and` asks for all of them,
`$or` for one of them and `$nor` for none. Any other member tests the field
that its name is the path of.

The filter of a predicate is read as a formula that has one conjunction around
each predicate more (`reading`), and has its value under every assignment to
the occurrences (`value_reading`). A path that began with a dollar sign would
be taken for an operator, so no path may (`Named`).
-/

namespace QueryLayer

namespace Document

/-- A test of a field of a document. -/
structure FieldTest where
  /-- The path of the field. -/
  path : String
  /-- What the value of the field must satisfy. -/
  criterion : Json

namespace FieldTest

/-- The test that a search on a collection makes. -/
def ofTest (base : CollectionRef) (t : Test) : FieldTest :=
  ⟨Document.path base t.target.field, criterionJson t.criterion⟩

end FieldTest

/-- The key names a field and no operator. -/
def Named (key : String) : Prop := key.toList.head? ≠ some '$'

instance (key : String) : Decidable (Named key) := inferInstanceAs (Decidable (¬ _))

namespace Match

/-- What an operator makes of several filters. -/
def operator : String → Option (List (Formula FieldTest) → Formula FieldTest)
  | "$and" => some .all
  | "$or" => some .any
  | "$nor" => some fun fs => .not (.any fs)
  | _ => none

/-- A member that tests a field. -/
def field (key : String) (criterion : Json) : Option (Formula FieldTest) :=
  if Named key then some (.leaf ⟨key, criterion⟩) else none

mutual

/-- A filter: every one of its members. -/
def read : Json → Option (Formula FieldTest)
  | .object members => (readMembers members).map .all
  | _ => none

/-- The members of a filter. -/
def readMembers : List (String × Json) → Option (List (Formula FieldTest))
  | [] => some []
  | (key, body) :: rest =>
    (readMember key body).bind fun f => (readMembers rest).map fun fs => f :: fs

/-- A member of a filter: an operator over filters, or the test of a field. -/
def readMember (key : String) : Json → Option (Formula FieldTest)
  | .array items =>
    match operator key with
    | some combine => (readItems items).map combine
    | none => field key (.array items)
  | body => field key body

/-- The filters of an array. -/
def readItems : List Json → Option (List (Formula FieldTest))
  | [] => some []
  | item :: rest => (read item).bind fun f => (readItems rest).map fun fs => f :: fs

end

/-- The filter in a stage of a pipeline, where it is one that filters. -/
def ofStage : Json → Option Json
  | .object [("$match", filter)] => some filter
  | _ => none

/-- What a pipeline asks of the documents it takes: that they satisfy the
filter of each stage that filters. -/
def readPipeline (stages : List Json) : Option (Formula FieldTest) :=
  (readItems (stages.filterMap ofStage)).map .all

/-! ## Reading a filter -/

/-- A filter with one member asks for that member. -/
theorem read_member {key : String} {body : Json} {f : Formula FieldTest}
    (h : readMember key body = some f) : read (.object [(key, body)]) = some (.all [f]) := by
  rw [read, readMembers, h]
  rfl

/-- A criterion is no array, so it is not taken for the filters of an operator. -/
theorem readMember_criterion {key : String} (h : Named key) (k : Criterion) :
    readMember key (criterionJson k) = some (.leaf ⟨key, criterionJson k⟩) := by
  have hfield : field key (criterionJson k) = some (.leaf ⟨key, criterionJson k⟩) := if_pos h
  rw [← hfield]
  cases k <;> rw [criterionJson, readMember] <;> rintro items ⟨⟩

theorem readMember_operator {key : String} {items : List Json} {fs : List (Formula FieldTest)}
    {combine : List (Formula FieldTest) → Formula FieldTest} (hkey : operator key = some combine)
    (hitems : readItems items = some fs) :
    readMember key (.array items) = some (combine fs) := by
  rw [readMember, hkey, hitems]
  rfl

mutual

/-- What the filter of a predicate is read as. -/
def reading (base : CollectionRef) : Predicate → Formula FieldTest
  | .test t => .all [.leaf (.ofTest base t)]
  | .not p => .all [.not (.any [reading base p])]
  | .all ps => .all [.all (readings base ps)]
  | .any ps => .all [.any (readings base ps)]

/-- What the filters of several predicates are read as. -/
def readings (base : CollectionRef) : List Predicate → List (Formula FieldTest)
  | [] => []
  | p :: ps => reading base p :: readings base ps

end

/-- The tests look at fields that the store can name. -/
def Nameable (base : CollectionRef) (ts : List Test) : Prop :=
  ∀ t ∈ ts, Named (path base t.target.field)

variable {base : CollectionRef}

mutual

/-- **The filter of a predicate is read back.** -/
theorem read_ofPredicate : ∀ p : Predicate, Nameable base p.formula.leaves →
    read (Filter.ofPredicate base p).toJson = some (reading base p)
  | .test t, h => by
    have ht : Named (path base t.target.field) := h t (List.mem_singleton.2 rfl)
    rw [Filter.ofPredicate, Filter.toJson, reading]
    exact read_member (readMember_criterion ht t.criterion)
  | .not p, h => by
    have hp := read_ofPredicate p h
    have hnor : operator "$nor" = some fun fs => .not (.any fs) := rfl
    have hitems : readItems (Filter.toJsonAll [Filter.ofPredicate base p]) =
        some [reading base p] := by
      rw [Filter.toJsonAll, readItems, hp]
      rfl
    rw [Filter.ofPredicate, Filter.toJson, reading]
    exact read_member (readMember_operator hnor hitems)
  | .all ps, h => by
    rw [Filter.ofPredicate, Filter.toJson, reading]
    exact read_member (readMember_operator rfl (readItems_ofPredicates ps h))
  | .any ps, h => by
    rw [Filter.ofPredicate, Filter.toJson, reading]
    exact read_member (readMember_operator rfl (readItems_ofPredicates ps h))

/-- The same for several predicates. -/
theorem readItems_ofPredicates : ∀ ps : List Predicate, Nameable base (Predicate.tests ps) →
    readItems (Filter.toJsonAll (Filter.ofPredicates base ps)) = some (readings base ps)
  | [], _ => rfl
  | p :: ps, h => by
    have hp := read_ofPredicate p fun t ht => h t (List.mem_append_left _ ht)
    have hps := readItems_ofPredicates ps fun t ht => h t (List.mem_append_right _ ht)
    rw [Filter.ofPredicates, Filter.toJsonAll, readItems, hp, hps]
    rfl

end

/-! ## What is read means the predicates -/

mutual

/-- What is read tests what the predicate tests, in order. -/
theorem leaves_reading : ∀ p : Predicate,
    (reading base p).leaves = p.formula.leaves.map (.ofTest base)
  | .test t => rfl
  | .not p => by
    rw [reading, Formula.leaves_all_singleton, Predicate.formula, Formula.leaves, Formula.leaves,
      Formula.leaves, Formula.leavesAll, Formula.leavesAll, List.append_nil]
    exact leaves_reading p
  | .all ps => by
    rw [reading, Formula.leaves_all_singleton, Predicate.formula, Formula.leaves, Formula.leaves]
    exact leavesAll_readings ps
  | .any ps => by
    rw [reading, Formula.leaves_all_singleton, Predicate.formula, Formula.leaves, Formula.leaves]
    exact leavesAll_readings ps

/-- The same for several predicates. -/
theorem leavesAll_readings : ∀ ps : List Predicate,
    Formula.leavesAll (readings base ps) = (Predicate.tests ps).map (.ofTest base)
  | [] => rfl
  | p :: ps => by
    rw [readings, Predicate.tests, Predicate.formulas, Formula.leavesAll, Formula.leavesAll,
      List.map_append, leaves_reading p, leavesAll_readings ps]
    rfl

end

mutual

/-- **What is read means the predicate.** -/
theorem value_reading (ν : ℕ → Bool) : ∀ (k : ℕ) (p : Predicate),
    (reading base p).value ν k = p.formula.value ν k
  | k, .test t => by simp [reading, Predicate.formula, Formula.value, Formula.valueAll]
  | k, .not p => by
    rw [reading, Formula.value_all_singleton, Predicate.formula, Formula.value, Formula.value,
      Formula.value, Formula.valueAny, Formula.valueAny, Bool.or_false, value_reading ν k p]
  | k, .all ps => by
    rw [reading, Formula.value_all_singleton, Predicate.formula, Formula.value, Formula.value,
      (values_readings ν k ps).1]
  | k, .any ps => by
    rw [reading, Formula.value_all_singleton, Predicate.formula, Formula.value, Formula.value,
      (values_readings ν k ps).2]

/-- The same for several predicates. -/
theorem values_readings (ν : ℕ → Bool) : ∀ (k : ℕ) (ps : List Predicate),
    Formula.valueAll ν k (readings base ps) = Formula.valueAll ν k (Predicate.formulas ps) ∧
      Formula.valueAny ν k (readings base ps) = Formula.valueAny ν k (Predicate.formulas ps)
  | _, [] => ⟨rfl, rfl⟩
  | k, p :: ps => by
    have hlength : (reading base p).leaves.length = p.formula.leaves.length := by
      rw [leaves_reading, List.length_map]
    have hrest := values_readings ν (k + p.formula.leaves.length) ps
    rw [readings, Predicate.formulas]
    exact Formula.values_cons hlength (value_reading ν k p) hrest

end

/-! ## The filter of a pipeline -/

/-- The formula tests what the predicates test, in their order, and has the
value of their conjunction. -/
structure Means (base : CollectionRef) (m : Formula FieldTest) (ps : List Predicate) : Prop where
  leaves_eq : m.leaves = (Predicate.tests ps).map (.ofTest base)
  value_eq : ∀ ν, m.value ν 0 = Formula.valueAll ν 0 (Predicate.formulas ps)

theorem Means.all_singleton {m : Formula FieldTest} {ps : List Predicate} (h : Means base m ps) :
    Means base (.all [m]) ps where
  leaves_eq := by rw [Formula.leaves_all_singleton, h.leaves_eq]
  value_eq ν := by rw [Formula.value_all_singleton, h.value_eq]

theorem means_nil : Means base (.all []) [] := ⟨rfl, fun _ => rfl⟩

theorem means_readings (ps : List Predicate) : Means base (.all (readings base ps)) ps where
  leaves_eq := leavesAll_readings ps
  value_eq ν := (values_readings ν 0 ps).1

/-- The one filter of several predicates means all of them. -/
theorem read_conjunction {ps : List Predicate} (h : Nameable base (Predicate.tests ps)) :
    ∃ m, read (Filter.conjunction (Filter.ofPredicates base ps)).toJson = some m ∧
      Means base m ps := by
  have hitems := readItems_ofPredicates ps h
  cases ps with
  | nil => exact ⟨_, rfl, means_nil⟩
  | cons p ps =>
    cases ps with
    | nil =>
      -- a single filter stands alone, without an operator around it
      have hp := read_ofPredicate p fun t ht => h t (List.mem_append_left _ ht)
      have hmeans : Means base (.all [reading base p]) [p] := means_readings [p]
      rw [Filter.ofPredicates, Filter.ofPredicates, Filter.conjunction, hp]
      refine ⟨_, rfl, ?_, fun ν => ?_⟩
      · rw [← hmeans.leaves_eq, Formula.leaves_all_singleton]
      · rw [← hmeans.value_eq, Formula.value_all_singleton]
    | cons q ps =>
      exact ⟨_, read_member (readMember_operator rfl hitems), (means_readings _).all_singleton⟩

/-- The filter of a stage. -/
def matched : Stage → Option Json
  | .filter f => some f.toJson
  | _ => none

theorem ofStage_toJson (s : Stage) : ofStage s.toJson = matched s := by
  cases s with
  | unwind collection keepEmpty => cases keepEmpty <;> rfl
  | lookup | filter | group | project | sort | skip | limit | count => rfl

/-- Of the stages of a plan only the one made of its predicates filters. -/
theorem matched_pipeline (p : Plan) (projection : List Projection) :
    (Stage.pipeline base p projection).filterMap matched =
      (Stage.filtering base p.predicates).filterMap matched := by
  have hjoin : ∀ j, (Stage.ofJoin j).filterMap matched = [] := fun j => rfl
  have hjoins : (p.joins.flatMap Stage.ofJoin).filterMap matched = [] := by
    simp [List.filterMap_flatMap, hjoin]
  have hshaping : (Stage.shaping base p.groups projection).filterMap matched = [] := by
    unfold Stage.shaping
    split
    · rfl
    · split <;> rfl
  have hsorting : (Stage.sorting base p.sorts).filterMap matched = [] := by
    unfold Stage.sorting
    split <;> rfl
  have hwindow : (Stage.ofWindow p.window).filterMap matched = [] := by
    cases p.window with
    | none => rfl
    | some w =>
      rw [Stage.ofWindow]
      split <;> rfl
  simp only [Stage.pipeline, List.filterMap_append, hjoins, hshaping, hsorting, hwindow,
    List.nil_append, List.append_nil]

/-- **The pipeline of a plan takes what its predicates ask for.** -/
theorem read_pipeline {p : Plan} (h : Nameable base (Predicate.tests p.predicates))
    (projection : List Projection) :
    ∃ m, readPipeline ((Stage.pipeline base p projection).map Stage.toJson) = some m ∧
      Means base m p.predicates := by
  have hstages : ((Stage.pipeline base p projection).map Stage.toJson).filterMap ofStage =
      (Stage.filtering base p.predicates).filterMap matched := by
    rw [List.filterMap_map, ← matched_pipeline]
    exact congrArg (List.filterMap · _) (funext ofStage_toJson)
  rw [readPipeline, hstages, Stage.filtering]
  cases hps : p.predicates with
  | nil => exact ⟨_, rfl, means_nil⟩
  | cons q qs =>
    rw [hps] at h
    -- the pipeline has the one filter that the predicates make together
    obtain ⟨m, hread, hmeans⟩ := read_conjunction h
    refine ⟨.all [m], ?_, hmeans.all_singleton⟩
    have hitems : readItems [(Filter.conjunction (Filter.ofPredicates base (q :: qs))).toJson] =
        some [m] := by
      rw [readItems, hread]
      rfl
    change (readItems [(Filter.conjunction (Filter.ofPredicates base (q :: qs))).toJson]).map _ = _
    rw [hitems]
    rfl

end Match

end Document

end QueryLayer
