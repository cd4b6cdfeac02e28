import QueryLayer.Proofs.Document.Match
import Mathlib.Data.List.Perm.Basic
import Mathlib.Data.List.Sort

/-!
# Runs of a pipeline

What the document store makes of documents, stage by stage. Only that is said
of a stage which holds for every store: documents with equal keys are sorted in
any order, groups come in any order, and what a lookup finds is left open. So a
run is a relation (`Runs`), and what holds of every run does not hang on the
choices of one store.
-/

namespace QueryLayer

/-! ## Lexicographic order -/

section Lexicographic

variable {κ κ' α β : Type} {le : κ → α → α → Prop} {ks ks' : List κ} {a b c : α}

/-- By the first key that tells them apart, `a` does not come after `b`. -/
def Lexicographic (le : κ → α → α → Prop) : List κ → α → α → Prop
  | [], _, _ => True
  | k :: ks, a, b => le k a b ∧ (le k b a → Lexicographic le ks a b)

/-- Later keys count where no earlier one decides. -/
theorem lexicographic_append : Lexicographic le (ks ++ ks') a b ↔
    Lexicographic le ks a b ∧ (Lexicographic le ks b a → Lexicographic le ks' a b) := by
  induction ks with
  | nil => simp [Lexicographic]
  | cons k ks ih =>
    rw [List.cons_append, Lexicographic, Lexicographic, Lexicographic, ih]
    constructor
    · rintro ⟨hab, h⟩
      exact ⟨⟨hab, fun hba => (h hba).1⟩, fun hba => (h hba.1).2 (hba.2 hab)⟩
    · rintro ⟨⟨hab, h⟩, hrest⟩
      exact ⟨hab, fun hba => ⟨h hba, fun htail => hrest ⟨hba, fun _ => htail⟩⟩⟩

/-- Keys that compare alike order alike. -/
theorem lexicographic_map {le' : κ' → β → β → Prop} {f : κ → κ'} {a' b' : β}
    (h : ∀ k ∈ ks, (le k a b ↔ le' (f k) a' b') ∧ (le k b a ↔ le' (f k) b' a')) :
    Lexicographic le ks a b ↔ Lexicographic le' (ks.map f) a' b' := by
  induction ks with
  | nil => exact Iff.rfl
  | cons k ks ih =>
    obtain ⟨hk, hks⟩ := List.forall_mem_cons.1 h
    rw [List.map_cons, Lexicographic, Lexicographic, hk.1, hk.2, ih hks]

/-- What does not come after by all keys, does not by a key that ties before. -/
theorem le_of_lexicographic {k : κ} (hk : k ∈ ks) (hab : Lexicographic le ks a b)
    (hba : Lexicographic le ks b a) : le k a b := by
  induction ks with
  | nil => simp at hk
  | cons k' ks ih =>
    rcases List.mem_cons.1 hk with rfl | hk
    · exact hab.1
    · exact ih hk (hab.2 hba.1) (hba.2 hab.1)

theorem lexicographic_of_forall (h : ∀ k ∈ ks, le k a b) : Lexicographic le ks a b := by
  induction ks with
  | nil => trivial
  | cons k ks ih =>
    obtain ⟨hk, hks⟩ := List.forall_mem_cons.1 h
    exact ⟨hk, fun _ => ih hks⟩

theorem lexicographic_total (htotal : ∀ k a b, le k a b ∨ le k b a) (ks : List κ) (a b : α) :
    Lexicographic le ks a b ∨ Lexicographic le ks b a := by
  induction ks with
  | nil => exact .inl trivial
  | cons k ks ih =>
    by_cases hab : le k a b
    · by_cases hba : le k b a
      · exact ih.imp (fun h => ⟨hab, fun _ => h⟩) fun h => ⟨hba, fun _ => h⟩
      · exact .inl ⟨hab, fun h => absurd h hba⟩
    · have hba : le k b a := (htotal k a b).resolve_left hab
      exact .inr ⟨hba, fun h => absurd h hab⟩

theorem lexicographic_trans (htrans : ∀ {k a b c}, le k a b → le k b c → le k a c)
    (hab : Lexicographic le ks a b) (hbc : Lexicographic le ks b c) : Lexicographic le ks a c := by
  induction ks with
  | nil => trivial
  | cons k ks ih =>
    -- a tie of the ends is a tie on both ways to the middle
    exact ⟨htrans hab.1 hbc.1, fun hca =>
      ih (hab.2 (htrans hbc.1 hca)) (hbc.2 (htrans hca hab.1))⟩

/-- So a list can be brought into the order. -/
theorem exists_perm_lexicographic (htotal : ∀ k a b, le k a b ∨ le k b a)
    (htrans : ∀ {k a b c}, le k a b → le k b c → le k a c) (ks : List κ) (xs : List α) :
    ∃ ys : List α, ys.Perm xs ∧ ys.Pairwise (Lexicographic le ks) := by
  classical
  have hsorted : (xs.mergeSort fun a b => decide (Lexicographic le ks a b)).Pairwise
      fun a b => decide (Lexicographic le ks a b) = true :=
    List.pairwise_mergeSort
      (fun a b c hab hbc => by
        rw [decide_eq_true_iff] at *
        exact lexicographic_trans htrans hab hbc)
      (fun a b => by simpa using lexicographic_total htotal ks a b) xs
  exact ⟨_, List.mergeSort_perm xs _, hsorted.imp fun h => of_decide_eq_true h⟩

end Lexicographic

namespace Document

/-! ## Documents and stores -/

/-- A document, as what it holds at each path. -/
abbrev Doc := String → Option Value

/-- What is not the same in all stores. -/
structure Store where
  /-- The document passes the test of a field. -/
  judges : FieldTest → Doc → Bool
  /-- The first value does not come after the second. A missing value has its
  place too. -/
  le : Option Value → Option Value → Prop
  le_total : ∀ u v, le u v ∨ le v u
  le_trans : ∀ {u v w}, le u v → le v w → le u w
  /-- The aggregation of the values at a path. -/
  aggregate : Aggregation → List (Option Value) → Option Value

namespace Store

variable (store : Store)

/-- The document is taken by a filter. -/
def passes (f : Filter) (doc : Doc) : Bool :=
  ((Match.read f.toJson).map (·.holds (store.judges · doc))).getD false

/-- In a direction the first value does not come after the second. -/
def before : SortOrder → Option Value → Option Value → Prop
  | .asc, u, v => store.le u v
  | .desc, u, v => store.le v u

/-- By the value at a path, one document does not come after another. -/
def byPath (k : String × SortOrder) (doc doc' : Doc) : Prop := store.before k.2 (doc k.1) (doc' k.1)

theorem before_total (o : SortOrder) (u v : Option Value) : store.before o u v ∨ store.before o v u := by
  cases o with
  | asc => exact store.le_total u v
  | desc => exact store.le_total v u

variable {store}

theorem before_trans {o : SortOrder} {u v w : Option Value} (huv : store.before o u v)
    (hvw : store.before o v w) : store.before o u w := by
  cases o with
  | asc => exact store.le_trans huv hvw
  | desc => exact store.le_trans hvw huv

end Store

/-- The integer that a value is; what is none counts as zero. -/
def integerOf : Option Value → ℤ
  | some (.int n) => n.toInt
  | _ => 0

/-- A store of integers, which knows one test: that a number is higher. -/
def integerStore : Store where
  judges t doc :=
    match t.criterion with
    | .object [("$gt", .int n)] => n < integerOf (doc t.path)
    | _ => false
  le u v := integerOf u ≤ integerOf v
  le_total _ _ := Int.le_total _ _
  le_trans := Int.le_trans
  aggregate _ vs := some (.int (.ofNat vs.length))

/-- What can stand behind a path for what is at it or in it. -/
def Below (rest : String) : Prop := ∀ c ∈ rest.toList.head?, c = '.'

/-- The paths are one, or one of them leads into what is at the other. -/
def Overlap (p q : String) : Prop := ∃ rest, Below rest ∧ (q = p ++ rest ∨ p = q ++ rest)

/-- The path of the identity of a document. -/
def identity : String := "_id"

/-! ## Stages -/

/-- The path of what a projection puts in one of its fields. -/
def ProjectField.source (name : String) : ProjectField → String
  | .keep => name
  | .copy path => path

/-- What a projection makes of a document. A field is given with all that is in
it, and the identity is kept unless the projection says something else about
it. -/
structure Projects (fields : List (String × ProjectField)) (doc doc' : Doc) : Prop where
  field : ∀ f ∈ fields, ∀ rest, Below rest → doc' (f.1 ++ rest) = doc (f.2.source f.1 ++ rest)
  kept_identity : (∀ f ∈ fields, ¬ Overlap identity f.1) → ∀ rest, Below rest →
    doc' (identity ++ rest) = doc (identity ++ rest)
  nothing_else : ∀ path, ¬ Overlap identity path → (∀ f ∈ fields, ¬ Overlap f.1 path) →
    doc' path = none

/-- The groups hold the documents, and two documents are in one group if they
have the same key. -/
structure Partition {α κ : Type} (key : α → κ) (docs : List α) (groups : List (List α)) : Prop where
  perm : groups.flatten.Perm docs
  ne_nil : ∀ g ∈ groups, g ≠ []
  same : ∀ g ∈ groups, ∀ a ∈ g, ∀ b ∈ g, key a = key b
  apart : groups.Pairwise fun g h => ∀ a ∈ g, ∀ b ∈ h, key a ≠ key b

/-- The values of the parts of a key. -/
def keyOf (parts : List (String × String)) (doc : Doc) : List (Option Value) :=
  parts.map fun p => doc p.2

/-- What a grouping with such a key makes of one group. -/
structure Condenses (store : Store) (parts : List (String × String))
    (fields : List (String × GroupField)) (g : List Doc) (doc : Doc) : Prop where
  key : ∀ part ∈ parts, ∀ d ∈ g, doc (identity ++ "." ++ part.1) = d part.2
  aggregate : ∀ name a path, (name, GroupField.aggregate a path) ∈ fields →
    doc name = store.aggregate a (g.map (· path))
  nothing_else : ∀ path, (∀ f ∈ fields, ¬ Overlap f.1 path) → doc path = none

/-- The document that holds a number at a path. -/
def numberDoc (field : String) (n : ℕ) : Doc := fun path =>
  if path = field then some (.int (.ofNat n)) else none

/-- What a stage makes of documents. A limit is never zero, and a grouping has
its key at the identity; what it does without one is left open. -/
def Stage.Makes (store : Store) : Stage → List Doc → List Doc → Prop
  | .lookup _ _, _, _ | .unwind _ _, _, _ => True
  | .filter f, docs, out => out = docs.filter (store.passes f)
  | .group fields, docs, out => ∀ parts, (identity, GroupField.key parts) ∈ fields →
    ∃ groups, Partition (keyOf parts) docs groups ∧
      List.Forall₂ (Condenses store parts fields) groups out
  | .project fields, docs, out => List.Forall₂ (Projects fields) docs out
  | .sort keys, docs, out => out.Perm docs ∧ out.Pairwise (Lexicographic store.byPath keys)
  | .skip n, docs, out => out = docs.drop n.toNat
  | .limit n, docs, out => n ≠ 0 ∧ out = docs.take n.toNat
  | .count field, docs, out => out = if docs.isEmpty then [] else [numberDoc field docs.length]

/-- What stages in a row make of documents. -/
def Runs (store : Store) : List Stage → List Doc → List Doc → Prop
  | [], docs, out => out = docs
  | stage :: stages, docs, out => ∃ mid, stage.Makes store docs mid ∧ Runs store stages mid out

section Runs

variable {store : Store} {stages stages' : List Stage} {docs out : List Doc}

theorem runs_append : Runs store (stages ++ stages') docs out ↔
    ∃ mid, Runs store stages docs mid ∧ Runs store stages' mid out := by
  induction stages generalizing docs with
  | nil => simp [Runs]
  | cons stage stages ih =>
    simp only [List.cons_append, Runs, ih]
    constructor
    · rintro ⟨first, hfirst, mid, hmid, hout⟩
      exact ⟨mid, ⟨first, hfirst, hmid⟩, hout⟩
    · rintro ⟨mid, ⟨first, hfirst, hmid⟩, hout⟩
      exact ⟨first, hfirst, mid, hmid, hout⟩

theorem runs_singleton {stage : Stage} :
    Runs store [stage] docs out ↔ stage.Makes store docs out := by
  simp [Runs]

/-! ## The stages of a plan -/

variable {base : CollectionRef}

/-- Everything passes the filter without tests. -/
theorem passes_everything (store : Store) : store.passes .everything = fun _ => true := by
  funext doc
  rfl

/-- The filter of a plan, which may have no stage of its own. -/
theorem runs_filtering {ps : List Predicate} : Runs store (Stage.filtering base ps) docs out ↔
    out = docs.filter (store.passes (.conjunction (Filter.ofPredicates base ps))) := by
  rw [Stage.filtering]
  cases ps with
  | nil =>
    change out = docs ↔ out = docs.filter (store.passes .everything)
    rw [passes_everything, List.filter_true]
  | cons p ps => exact runs_singleton

/-- The sort keys of a plan, which may have no stage either. -/
theorem runs_sorting {ks : List SortKey} (h : Runs store (Stage.sorting base ks) docs out) :
    out.Perm docs ∧ out.Pairwise (Lexicographic store.byPath (Stage.sortKeys base ks)) := by
  rw [Stage.sorting] at h
  cases ks with
  | nil =>
    obtain rfl : out = docs := h
    exact ⟨.rfl, List.pairwise_of_forall fun _ _ => trivial⟩
  | cons k ks => exact runs_singleton.1 h

/-- Any documents can be sorted. -/
theorem exists_runs_sorting (store : Store) (base : CollectionRef) (ks : List SortKey)
    (docs : List Doc) : ∃ out, Runs store (Stage.sorting base ks) docs out := by
  rw [Stage.sorting]
  split
  · exact ⟨docs, rfl⟩
  · have htotal : ∀ k doc doc', store.byPath k doc doc' ∨ store.byPath k doc' doc :=
      fun k _ _ => store.before_total k.2 _ _
    obtain ⟨out, hout⟩ :=
      exists_perm_lexicographic htotal Store.before_trans (Stage.sortKeys base ks) docs
    exact ⟨out, runs_singleton.2 hout⟩

/-- What a window takes of a list. -/
def windowed {α : Type} (w : Option Window) (xs : List α) : List α :=
  match w with
  | none => xs
  | some w => (xs.drop w.offset.toNat).take w.limit.toNat

/-- The window of a plan. -/
theorem runs_ofWindow {w : Option Window} : Runs store (Stage.ofWindow w) docs out ↔
    (∀ v ∈ w, v.limit ≠ 0) ∧ out = windowed w docs := by
  cases w with
  | none => simp [Stage.ofWindow, Runs, windowed]
  | some w =>
    have hlimit : ∀ mid, Runs store [.limit w.limit] mid out ↔
        w.limit ≠ 0 ∧ out = mid.take w.limit.toNat := fun mid => runs_singleton
    rw [Stage.ofWindow]
    -- an offset of zero has no stage
    split
    · rw [List.singleton_append, Runs]
      simp [hlimit, Stage.Makes, windowed]
    · next hzero =>
      have hoffset : w.offset.toNat = 0 := by
        have := UInt64.lt_iff_toNat_lt.not.1 hzero
        simpa using this
      rw [List.nil_append, hlimit]
      simp [windowed, hoffset]

end Runs

end Document

end QueryLayer
