import QueryLayer.Proofs.Language.Accepted

/-!
# Stored markers and the values they take

A condition has room for operands that its kind never reads: a test for null reads
no value, and only a range reads its upper bound. Such an operand may be a marker,
and then no runtime value belongs to it. A statement takes one value for each
marker that is read, in the order of declaration (`compile_consumes_reads`), so the
markers that are stored and the values that are taken are as many exactly if no
marker is stored where it is not read.
-/

namespace QueryLayer

/-! ## Operands in the order of declaration -/

namespace Condition

/-- The operands that are stored. -/
def stored (c : Condition) : List Operand := c.value :: c.upperBound.toList

/-- The operands that the kind of the condition reads. -/
def reads (c : Condition) : List Operand :=
  match c.kind with
  | .null => []
  | .between => c.stored
  | .equals | .like | .lower | .higher | .oneOf => [c.value]

/-- The operands that are stored and not read. -/
def unread (c : Condition) : List Operand :=
  match c.kind with
  | .null => c.stored
  | .between => []
  | .equals | .like | .lower | .higher | .oneOf => c.upperBound.toList

end Condition

namespace Entry

mutual

/-- The operands of an entry in the order of declaration, of a condition those that
`f` names. -/
def operands (f : Condition → List Operand) : Entry → List Operand
  | .condition c => f c
  | .operation _ es => operandsAll f es
  | .set a => [a.value]
  | .join _ | .limit _ | .orderBy _ | .groupBy _ => []

/-- The operands of several entries. -/
def operandsAll (f : Condition → List Operand) : List Entry → List Operand
  | [] => []
  | e :: es => operands f e ++ operandsAll f es

end

end Entry

namespace Operand

/-- The number of markers among operands. -/
def count (os : List Operand) : ℕ := os.countP isPrepared

@[simp] theorem count_nil : count [] = 0 := rfl

@[simp] theorem count_cons (o : Operand) (os : List Operand) :
    count (o :: os) = o.markers + count os := by
  cases o with
  | literal v => rw [count, List.countP_cons_of_neg Bool.false_ne_true, markers, Nat.zero_add, count]
  | prepared => rw [count, List.countP_cons_of_pos rfl, markers, Nat.add_comm, count]

@[simp] theorem count_append (os ps : List Operand) : count (os ++ ps) = count os + count ps :=
  List.countP_append

theorem count_toList (o : Option Operand) : count o.toList = (o.map markers).getD 0 := by
  cases o <;> simp

/-- The operands with values in the place of their markers, one after the other. -/
def fillEach (vs : List Value) : List Operand → List Operand
  | [] => []
  | o :: os => o.fill vs :: fillEach (vs.drop o.markers) os

theorem fillEach_append (vs : List Value) (os ps : List Operand) :
    fillEach vs (os ++ ps) = fillEach vs os ++ fillEach (vs.drop (count os)) ps := by
  induction os generalizing vs with
  | nil => rfl
  | cons o os ih => simp [fillEach, ih, List.drop_drop]

/-- **The k-th marker gets the k-th value.** -/
theorem getElem?_fillEach {vs : List Value} {os : List Operand} (hvs : count os ≤ vs.length)
    {i : ℕ} (hi : os[i]? = some .prepared) :
    ∃ v, vs[count (os.take i)]? = some v ∧ (fillEach vs os)[i]? = some (.literal v) := by
  induction os generalizing vs i with
  | nil => cases hi
  | cons o os ih =>
    rw [count_cons] at hvs
    cases i with
    | zero =>
      obtain rfl : o = .prepared := by simpa using hi
      cases vs with
      | nil => simp [markers] at hvs
      | cons v vs => exact ⟨v, rfl, rfl⟩
    | succ i =>
      have hrest : count os ≤ (vs.drop o.markers).length := by
        rw [List.length_drop]
        omega
      obtain ⟨v, hv, hfilled⟩ := ih hrest (by simpa using hi)
      refine ⟨v, ?_, by simpa [fillEach] using hfilled⟩
      rw [List.take_succ_cons, count_cons, ← hv, List.getElem?_drop]

end Operand

namespace Condition

variable (c : Condition)

theorem count_reads : Operand.count c.reads = c.markers := by
  obtain ⟨kind, target, value, upper⟩ := c
  cases kind <;> simp [reads, stored, markers, Operand.count_toList]

theorem count_stored : Operand.count c.stored = Operand.count c.reads + Operand.count c.unread := by
  obtain ⟨kind, target, value, upper⟩ := c
  cases kind <;> simp [reads, stored, unread]

theorem reads_fill (vs : List Value) : (c.fill vs).reads = Operand.fillEach vs c.reads := by
  obtain ⟨kind, target, value, upper⟩ := c
  cases kind with
  | between => cases upper <;> rfl
  | equals | like | lower | higher | null | oneOf => rfl

end Condition

namespace Entry

mutual

/-- The markers of an entry are those that are read. -/
theorem count_operands_reads : ∀ e : Entry, Operand.count (e.operands Condition.reads) = e.markers
  | .condition c => by rw [operands, markers, c.count_reads]
  | .operation _ es => by rw [operands, markers, count_operandsAll_reads es]
  | .set a => by simp [operands, markers]
  | .join _ | .limit _ | .orderBy _ | .groupBy _ => rfl

/-- The same for several entries. -/
theorem count_operandsAll_reads : ∀ es : List Entry,
    Operand.count (operandsAll Condition.reads es) = markersAll es
  | [] => rfl
  | e :: es => by
    rw [operandsAll, markersAll, Operand.count_append, count_operands_reads e,
      count_operandsAll_reads es]

end

mutual

/-- A marker is read, or it stands where a condition does not read it. -/
theorem count_operands_stored : ∀ e : Entry, Operand.count (e.operands Condition.stored) =
    e.markers + Operand.count (e.conditions.flatMap Condition.unread)
  | .condition c => by
    simp [operands, markers, conditions, c.count_stored, c.count_reads]
  | .operation _ es => by rw [operands, markers, conditions, count_operandsAll_stored es]
  | .set a => by simp [operands, markers, conditions]
  | .join _ | .limit _ | .orderBy _ | .groupBy _ => rfl

/-- The same for several entries. -/
theorem count_operandsAll_stored : ∀ es : List Entry,
    Operand.count (operandsAll Condition.stored es) =
      markersAll es + Operand.count ((conditionsAll es).flatMap Condition.unread)
  | [] => rfl
  | e :: es => by
    rw [operandsAll, markersAll, conditionsAll, List.flatMap_append, Operand.count_append,
      Operand.count_append, count_operands_stored e, count_operandsAll_stored es]
    omega

end

mutual

/-- Filled entries read the values in the order of their markers. -/
theorem operands_reads_fill : ∀ (e : Entry) (vs : List Value),
    (fill vs e).operands Condition.reads = Operand.fillEach vs (e.operands Condition.reads)
  | .condition c, vs => by rw [fill, operands, operands, c.reads_fill]
  | .operation _ es, vs => by rw [fill, operands, operands, operandsAll_reads_fillAll es]
  | .set a, vs => rfl
  | .join _, _ | .limit _, _ | .orderBy _, _ | .groupBy _, _ => rfl

/-- The same for several entries. -/
theorem operandsAll_reads_fillAll : ∀ (es : List Entry) (vs : List Value),
    operandsAll Condition.reads (fillAll vs es) =
      Operand.fillEach vs (operandsAll Condition.reads es)
  | [], _ => rfl
  | e :: es, vs => by
    rw [fillAll, operandsAll, operandsAll, operands_reads_fill e, operandsAll_reads_fillAll es,
      Operand.fillEach_append, count_operands_reads]

end

end Entry

namespace Statement

/-- The operands that a search statement reads, in the order of declaration. -/
def reads (s : Statement) : List Operand := Entry.operandsAll Condition.reads s.entries

/-- The operands that a search statement stores, in the order of declaration. -/
def stored (s : Statement) : List Operand := Entry.operandsAll Condition.stored s.entries

/-- The operands that a search statement stores and does not read: the values of
tests for null, and the upper bounds of tests that are no ranges. -/
def unread (s : Statement) : List Operand :=
  (Entry.conditionsAll s.entries).flatMap Condition.unread

variable {s : Statement}

theorem count_reads (hs : s.IsSearch) : Operand.count s.reads = s.markers := by
  cases s with
  | find s | count s | delete s | update s => exact Entry.count_operandsAll_reads _
  | insert _ | replace _ | create _ | drop _ | clear _ => exact hs.elim

theorem count_stored (s : Statement) :
    Operand.count s.stored = Operand.count s.reads + Operand.count s.unread := by
  rw [stored, reads, Entry.count_operandsAll_stored, Entry.count_operandsAll_reads]
  rfl

theorem reads_fill (hs : s.IsSearch) (vs : List Value) :
    (s.fill vs).reads = Operand.fillEach vs s.reads := by
  cases s with
  | find s | count s | delete s | update s => exact Entry.operandsAll_reads_fillAll _ vs
  | insert _ | replace _ | create _ | drop _ | clear _ => exact hs.elim

theorem ne_insert (hs : s.IsSearch) (i : Insert) : s ≠ .insert i := by
  rintro rfl
  exact hs

end Statement

/-! ## The values that are taken -/

namespace Language

variable {l : Language} {s : Statement} {values : List Value} {n m : ℕ}

/-- The statement takes the first `n` of the values: each of them is asked for, and
no other makes a difference. -/
structure Consumes (l : Language) (s : Statement) (values : List Value) (n : ℕ) : Prop where
  enough : ∀ k, n ≤ k → l.compile s (values.take k) = l.compile s values
  missing : ∀ k < n, l.compile s (values.take k) = .error (.missingPreparedValue k)

/-- How many values are taken is no matter of choice. -/
theorem Consumes.unique {c : Command} (hc : l.compile s values = .ok c) (h : l.Consumes s values n)
    (h' : l.Consumes s values m) : n = m := by
  have hle {n m : ℕ} (h : l.Consumes s values n) (h' : l.Consumes s values m) : n ≤ m := by
    by_contra hlt
    -- the value that is missing for one is one too many for the other
    have hmissing := h.missing m (by omega)
    rw [h'.enough m (Nat.le_refl m), hc] at hmissing
    cases hmissing
  exact Nat.le_antisymm (hle h h') (hle h' h)

/-- A statement that compiles takes a value for each of its markers. -/
theorem consumes_markers (hs : ∀ i, s ≠ .insert i) {c : Command}
    (hc : l.compile s values = .ok c) : l.Consumes s values s.markers := by
  have hsubstitutes := l.substitutes_compile hs
  obtain ⟨hvalues, -⟩ := hsubstitutes.eq_ok_iff.1 hc
  constructor
  · intro k hk
    have hlength : s.markers ≤ (values.take k).length := by
      rw [List.length_take]
      omega
    rw [← hsubstitutes.extra _ (values.drop k) hlength, List.take_append_drop]
  · intro k hk
    have hlength : (values.take k).length = k := by
      rw [List.length_take]
      omega
    -- all the values make the statement compile, so nothing else is wrong with it
    obtain ⟨e, he, hmissing⟩ := hsubstitutes.starves (values.take k) (by omega)
    rw [he, hmissing (values.drop k) c (by rw [List.take_append_drop, hc]), hlength]

/-- **A statement takes a value for each marker that it reads**, the k-th value for
the k-th of them, in every language. These are the markers that are stored, apart
from those in the value of a test for null and in the upper bound of a test that is
no range; so as many values are taken as markers are stored exactly if there are
none of those. -/
theorem compile_consumes_reads (hs : s.IsSearch) {c : Command}
    (hc : l.compile s values = .ok c) :
    l.Consumes s values (Operand.count s.reads) ∧
      Operand.count s.stored = Operand.count s.reads + Operand.count s.unread ∧
      (l.Consumes s values (Operand.count s.stored) ↔ Operand.count s.unread = 0) ∧
      l.compile (s.fill values) [] = .ok c ∧
      ∀ i, s.reads[i]? = some .prepared →
        ∃ v, values[Operand.count (s.reads.take i)]? = some v ∧
          (s.fill values).reads[i]? = some (.literal v) := by
  have hinsert := s.ne_insert hs
  have hconsumes := consumes_markers hinsert hc
  rw [← Statement.count_reads hs] at hconsumes
  have hstored := s.count_stored
  obtain ⟨hvalues, hfilled⟩ := (l.substitutes_compile hinsert).eq_ok_iff.1 hc
  rw [← Statement.count_reads hs] at hvalues
  refine ⟨hconsumes, hstored, ?_, hfilled, fun i hi => ?_⟩
  · constructor
    · intro h
      have hsame := hconsumes.unique hc h
      omega
    · intro hnone
      rwa [hstored, hnone, Nat.add_zero]
  · rw [Statement.reads_fill hs]
    exact Operand.getElem?_fillEach hvalues hi

/-- A delete with a range, a test for null and a test, of which the range and the
test wait for values. -/
def retired : Statement :=
  .delete ⟨⟨"shop", "users"⟩,
    [.condition ⟨.between, ⟨.plain "age", none⟩, .prepared, some .prepared⟩,
      .operation .not [.condition ⟨.null, ⟨.plain "email", none⟩, .literal .null, none⟩],
      .condition ⟨.equals, ⟨.plain "rank", none⟩, .prepared, none⟩]⟩

/-- It takes three values for the three markers that it stores, the last one for the
rank. -/
theorem compile_retired_consumes_reads :
    (sql .sqlite).Consumes retired [.int 18, .int 65, .int 3] 3 ∧
      Operand.count retired.stored = 3 ∧
      (retired.fill [.int 18, .int 65, .int 3]).reads[2]? = some (.literal (.int 3)) := by
  have hs : retired.IsSearch := trivial
  have hc : (sql .sqlite).compile retired [.int 18, .int 65, .int 3] = .ok _ := rfl
  obtain ⟨hconsumes, hstored, -, -, hreads⟩ := compile_consumes_reads hs hc
  obtain ⟨v, hv, hfilled⟩ := hreads 2 rfl
  cases hv
  exact ⟨hconsumes, hstored, hfilled⟩

/-- A find with a marker in a test for null, and one behind it. -/
def blank : Statement :=
  .find ⟨⟨⟨"shop", "users"⟩,
    [.condition ⟨.null, ⟨.plain "a", none⟩, .prepared, none⟩,
      .condition ⟨.equals, ⟨.plain "b", none⟩, .prepared, none⟩]⟩, []⟩

/-- It stores two markers and takes one value, and the second marker gets the first
value. -/
theorem compile_blank_consumes_less :
    ∃ c, document.compile blank [.int 1, .int 2] = .ok c ∧
      Operand.count blank.stored = 2 ∧
      ¬ document.Consumes blank [.int 1, .int 2] 2 ∧
      document.Consumes blank [.int 1, .int 2] 1 ∧
      document.compile (blank.fill [.int 1, .int 2]) [] = .ok c ∧
      (blank.fill [.int 1, .int 2]).stored[1]? = some (.literal (.int 1)) := by
  have hinsert : ∀ i, blank ≠ .insert i := by rintro i ⟨⟩
  have hc : document.compile blank [.int 1, .int 2] = .ok _ := rfl
  have hconsumes : document.Consumes blank [.int 1, .int 2] 1 := consumes_markers hinsert hc
  refine ⟨_, hc, rfl, fun h => ?_, hconsumes, rfl, rfl⟩
  exact absurd (h.unique hc hconsumes) (by decide)

end Language

end QueryLayer
