import QueryLayer.Proofs.Walk.Parts
import QueryLayer.Language

/-!
# The order of clauses

Clauses may be asked for in any order, and between or inside the operators of a
filter. The canonical form of a statement has its joins first, then its
assignments and conditions, and then its keys and its window, and a statement
becomes what its canonical form becomes (`compile_canonical`), in every
language. A canonical form has the meaning and the parts of the statement, and
by `Proofs.Walk.Parts` a plan depends on nothing else.
-/

namespace QueryLayer

open Walk

namespace Entry

mutual

/-- What is left of an entry without the clauses in it: a condition, or an
operator over what is left inside it. An operator over no condition is gone. -/
def pruned : Entry → List Entry
  | .condition c => [.condition c]
  | .operation kind es => if anyPredicate es then [.operation kind (prunedAll es)] else []
  | _ => []

/-- What is left of several entries. -/
def prunedAll : List Entry → List Entry
  | [] => []
  | e :: es => pruned e ++ prunedAll es

end

/-- What is left of an entry at the top level, where assignments stay. -/
def kept : Entry → List Entry
  | .set a => [.set a]
  | e => pruned e

/-- The entries in canonical order: joins, then assignments and predicates as
they stand to each other, then group keys, sort keys and windows. -/
def canonical (es : List Entry) : List Entry :=
  (partsAll es).joins.map .join ++ es.flatMap kept ++ (partsAll es).groups.map .groupBy ++
    (partsAll es).sorts.map .orderBy ++ (partsAll es).windows.map .limit

/-! ## Pruned entries -/

mutual

/-- Pruning keeps the meaning. -/
theorem formulasAll_pruned : ∀ e : Entry, formulasAll (pruned e) = formulas e
  | .condition _ => by simp [pruned, formulasAll, formulas]
  | .operation kind es => by
    rw [pruned, formulas]
    cases hes : anyPredicate es with
    | true =>
      rw [if_pos rfl, formulasAll, formulas, formulasAll_prunedAll es, formulasAll, List.append_nil]
    | false =>
      have hnone := (formulasAll_eq_nil_iff es).2 hes
      rw [if_neg Bool.false_ne_true, formulasAll, hnone, OperationKind.group_eq_nil_iff.2 rfl]
  | .join _ | .limit _ | .orderBy _ | .groupBy _ | .set _ => by simp [pruned, formulasAll, formulas]

theorem formulasAll_prunedAll : ∀ es : List Entry, formulasAll (prunedAll es) = formulasAll es
  | [] => rfl
  | e :: es => by
    rw [prunedAll, formulasAll_append, formulasAll_pruned e, formulasAll_prunedAll es, formulasAll]

end

mutual

/-- Pruning leaves nothing beside the conditions. -/
theorem partsAll_pruned : ∀ e : Entry, partsAll (pruned e) = .none
  | .condition _ => by simp [pruned, partsAll, parts]
  | .operation kind es => by
    rw [pruned]
    split
    · rw [partsAll, parts, partsAll_prunedAll es, partsAll, Parts.append_none]
    · rw [partsAll]
  | .join _ | .limit _ | .orderBy _ | .groupBy _ | .set _ => by simp [pruned, partsAll]

theorem partsAll_prunedAll : ∀ es : List Entry, partsAll (prunedAll es) = .none
  | [] => rfl
  | e :: es => by
    rw [prunedAll, partsAll_append, partsAll_pruned e, partsAll_prunedAll es, Parts.append_none]

end

theorem assignments_pruned (e : Entry) : (partsAll (pruned e)).assignments = [] := by
  rw [partsAll_pruned]
  rfl

theorem formulasAll_kept (e : Entry) : formulasAll (kept e) = formulas e := by
  cases e with
  | set a => simp [kept, formulasAll, formulas]
  | condition _ | operation _ _ | join _ | limit _ | orderBy _ | groupBy _ =>
    exact formulasAll_pruned _

theorem formulasAll_flatMap_kept (es : List Entry) :
    formulasAll (es.flatMap kept) = formulasAll es := by
  induction es with
  | nil => rfl
  | cons e es ih => rw [List.flatMap_cons, formulasAll_append, formulasAll_kept, ih, formulasAll]

/-- An entry without assignments inside it keeps its assignments, and nothing
else beside its conditions. -/
theorem partsAll_kept {e : Entry} (he : e.Flat) :
    partsAll (kept e) = { Parts.none with assignments := e.parts.assignments } := by
  cases e with
  | set a => simp [kept, partsAll, parts]
  | condition _ | operation _ _ | join _ | limit _ | orderBy _ | groupBy _ =>
    simp only [Flat] at he
    rw [he]
    exact partsAll_pruned _

theorem partsAll_flatMap_kept {es : List Entry} (hes : ∀ e ∈ es, e.Flat) :
    partsAll (es.flatMap kept) = { Parts.none with assignments := (partsAll es).assignments } := by
  induction es with
  | nil => rfl
  | cons e es ih =>
    obtain ⟨he, hes⟩ := List.forall_mem_cons.1 hes
    rw [List.flatMap_cons, partsAll_append, partsAll_kept he, ih hes]
    rfl

/-! ## Canonical entries -/

section Clauses

variable {α : Type} {f : α → Entry}

/-- Clauses alone mean nothing. -/
theorem formulasAll_map (hf : ∀ a, formulas (f a) = []) (xs : List α) :
    formulasAll (xs.map f) = [] := by
  induction xs with
  | nil => rfl
  | cons x xs ih => rw [List.map_cons, formulasAll, hf, ih, List.append_nil]

/-- Clauses of one kind are the parts of that kind. -/
theorem partsAll_map {g : List α → Parts} (hnil : g [] = .none)
    (hcons : ∀ x xs, (f x).parts ++ g xs = g (x :: xs)) (xs : List α) :
    partsAll (xs.map f) = g xs := by
  induction xs with
  | nil => exact hnil.symm
  | cons x xs ih => rw [List.map_cons, partsAll, ih, hcons]

end Clauses

/-- **The canonical form has the meaning of the entries.** -/
theorem formulasAll_canonical (es : List Entry) : formulasAll (canonical es) = formulasAll es := by
  simp only [canonical, formulasAll_append, formulasAll_flatMap_kept]
  rw [formulasAll_map fun _ => rfl, formulasAll_map fun _ => rfl, formulasAll_map fun _ => rfl,
    formulasAll_map fun _ => rfl]
  simp only [List.nil_append, List.append_nil]

/-- **And their parts**, where no assignment is lost inside an operator. -/
theorem partsAll_canonical {es : List Entry} (hes : ∀ e ∈ es, e.Flat) :
    partsAll (canonical es) = partsAll es := by
  have hjoins := partsAll_map (f := .join) (g := fun js => { Parts.none with joins := js }) rfl
    (fun _ _ => rfl) (partsAll es).joins
  have hgroups := partsAll_map (f := .groupBy) (g := fun ts => { Parts.none with groups := ts }) rfl
    (fun _ _ => rfl) (partsAll es).groups
  have hsorts := partsAll_map (f := .orderBy) (g := fun ks => { Parts.none with sorts := ks }) rfl
    (fun _ _ => rfl) (partsAll es).sorts
  have hwindows := partsAll_map (f := .limit) (g := fun ws => { Parts.none with windows := ws }) rfl
    (fun _ _ => rfl) (partsAll es).windows
  simp only [canonical, partsAll_append, hjoins, hgroups, hsorts, hwindows,
    partsAll_flatMap_kept hes]
  ext1 <;> simp [Parts.none]

/-- Entries that hold no assignment hold none inside. -/
theorem flat_of_assignments {es : List Entry} (h : (partsAll es).assignments = []) :
    ∀ e ∈ es, e.Flat := by
  induction es with
  | nil => simp
  | cons e es ih =>
    obtain ⟨he, hes⟩ := List.append_eq_nil_iff.1 h
    refine List.forall_mem_cons.2 ⟨?_, ih hes⟩
    cases e with
    | set a => trivial
    | condition _ | operation _ _ | join _ | limit _ | orderBy _ | groupBy _ => exact he

/-- No assignment stands inside an operator of a canonical form. -/
theorem flat_canonical (es : List Entry) : ∀ e ∈ canonical es, e.Flat := by
  have hkept : ∀ e ∈ es.flatMap kept, e.Flat := by
    intro e he
    obtain ⟨e', he', he⟩ := List.mem_flatMap.1 he
    cases e' with
    | set a =>
      obtain rfl := List.mem_singleton.1 he
      trivial
    | condition _ | operation _ _ | join _ | limit _ | orderBy _ | groupBy _ =>
      change e ∈ pruned _ at he
      exact flat_of_assignments (assignments_pruned _) e he
  intro e he
  simp only [canonical, List.mem_append, List.mem_map] at he
  rcases he with (((⟨j, -, rfl⟩ | he) | ⟨t, -, rfl⟩) | ⟨k, -, rfl⟩) | ⟨v, -, rfl⟩
  · rfl
  · exact hkept e he
  · rfl
  · rfl
  · rfl

section Changes

variable {α : Type} {r : Rules} {assign : Assignment → Step α}

/-- Where nothing is assigned, the conditions alone are resolved. -/
theorem resolveChanges_of_assignments {es : List Entry} (h : (partsAll es).assignments = []) :
    resolveChanges r assign es = (do return ([], ← Formula.resolveAll r (formulasAll es))) := by
  induction es with
  | nil => simp [resolveChanges, formulasAll, Formula.resolveAll]
  | cons e es ih =>
    obtain ⟨he, hes⟩ := List.append_eq_nil_iff.1 h
    rw [resolveChanges, ih hes, formulasAll, Formula.resolveAll_append]
    cases e with
    | set a => cases he
    | condition _ | operation _ _ | join _ | limit _ | orderBy _ | groupBy _ =>
      simp [resolveChange]

/-- Clauses alone resolve to nothing. -/
theorem resolveChanges_map {β : Type} {f : β → Entry} (hf : ∀ b, formulas (f b) = [])
    (hparts : ∀ b, (f b).parts.assignments = []) (xs : List β) :
    resolveChanges r assign (xs.map f) = pure ([], []) := by
  have hnone : (partsAll (xs.map f)).assignments = [] := by
    induction xs with
    | nil => rfl
    | cons x xs ih => exact List.append_eq_nil_iff.2 ⟨hparts x, ih⟩
  rw [resolveChanges_of_assignments hnone, formulasAll_map hf, Formula.resolveAll, pure_bind]

theorem resolveChanges_kept (e : Entry) :
    resolveChanges r assign (kept e) = resolveChange r assign e := by
  cases e with
  | set a => simp [kept, resolveChanges, resolveChange]
  | condition _ | operation _ _ | join _ | limit _ | orderBy _ | groupBy _ =>
    refine (resolveChanges_of_assignments (assignments_pruned _)).trans ?_
    rw [formulasAll_pruned]
    rfl

/-- **The canonical form makes the changes of the entries, in their order.** -/
theorem resolveChanges_canonical (es : List Entry) :
    resolveChanges r assign (canonical es) = resolveChanges r assign es := by
  have hkept : resolveChanges r assign (es.flatMap kept) = resolveChanges r assign es := by
    induction es with
    | nil => rfl
    | cons e es ih =>
      rw [List.flatMap_cons, resolveChanges_append, resolveChanges_kept, ih, resolveChanges]
  simp only [canonical, resolveChanges_append, hkept]
  rw [resolveChanges_map (fun _ => rfl) fun _ => rfl, resolveChanges_map (fun _ => rfl) fun _ => rfl,
    resolveChanges_map (fun _ => rfl) fun _ => rfl, resolveChanges_map (fun _ => rfl) fun _ => rfl]
  simp

end Changes

end Entry

/-! ## Plans and statements -/

namespace Plan

variable {r : Rules} {es : List Entry} {values : List Value}

/-- Canonical entries make the plan of the entries. -/
theorem ofEntries_canonical (hes : ∀ e ∈ es, e.Flat) {p : Plan} :
    ofEntries r (Entry.canonical es) values = .ok p ↔ ofEntries r es values = .ok p := by
  have hwalk : ∀ x : List Predicate × Walk,
      (Entry.collectAll r (Entry.canonical es)).run (Walk.start values) = .ok x ↔
        (Entry.collectAll r es).run (Walk.start values) = .ok x := by
    intro x
    exact Entry.collectAll_eq_ok.trans <| by
      rw [Entry.formulasAll_canonical, Entry.partsAll_canonical hes]
      exact Entry.collectAll_eq_ok.symm
  simp only [ofEntries, Run.outcome_map_eq_ok, hwalk]

/-- The same for a plan with assignments. -/
theorem ofChanges_canonical {α : Type} {assign : Assignment → Walk.Step α}
    (hassign : ∀ a, Walk.ClauseFree (assign a)) (hes : ∀ e ∈ es, e.Flat) {x : List α × Plan} :
    ofChanges r assign (Entry.canonical es) values = .ok x ↔ ofChanges r assign es values = .ok x := by
  have hwalk : ∀ x : (List α × List Predicate) × Walk,
      (Entry.collectChanges r assign (Entry.canonical es)).run (Walk.start values) = .ok x ↔
        (Entry.collectChanges r assign es).run (Walk.start values) = .ok x := by
    intro x
    refine (Entry.collectChanges_eq_ok hassign).trans ?_
    rw [Entry.resolveChanges_canonical, Entry.partsAll_canonical hes]
    exact (and_congr_left fun _ => iff_of_true (Entry.flat_canonical es) hes).trans
      (Entry.collectChanges_eq_ok hassign).symm
  simp only [ofChanges, Run.outcome_map_eq_ok, hwalk]

end Plan

namespace Search

/-- The search with its entries in canonical order. -/
def canonical (s : Search) : Search := { s with entries := Entry.canonical s.entries }

end Search

namespace Find

/-- The find with its entries in canonical order. -/
def canonical (s : Find) : Find := { s with entries := Entry.canonical s.entries }

end Find

namespace Statement

/-- The entries whose order plays no role: those of a search, of an update and
of a delete. -/
def entries : Statement → List Entry
  | .find s => s.entries
  | .update s | .delete s | .count s => s.entries
  | .insert _ | .replace _ | .create _ | .drop _ | .clear _ => []

/-- The statement with these entries in canonical order. -/
def canonical : Statement → Statement
  | .find s => .find s.canonical
  | .update s => .update s.canonical
  | .delete s => .delete s.canonical
  | .count s => .count s.canonical
  | s => s

end Statement

/-- What follows on outcomes that succeed alike succeeds alike. -/
theorem Run.outcome_bind_congr {ε α β : Type} {x y : Except ε α} {f : α → Except ε β}
    (h : ∀ a, x = .ok a ↔ y = .ok a) {b : β} : (x >>= f) = .ok b ↔ (y >>= f) = .ok b := by
  simp only [Run.outcome_bind_eq_ok, h]

namespace Sql

variable {d : Dialect} {values : List Value}

theorem render_canonical {s : Statement} (hs : ∀ e ∈ s.entries, e.Flat) {q : Query} :
    render d s.canonical values = .ok q ↔ render d s values = .ok q := by
  have hassign : ∀ a : Assignment, Walk.ClauseFree
      (do return assignment a (← Walk.resolve a.value) : Walk.Step Fragment) :=
    fun a => .bind (.resolve a.value) fun _ => .pure _
  cases s with
  | find s =>
    have hselect : ∀ f, select d s.canonical values = .ok f ↔ select d s values = .ok f :=
      fun f => Run.outcome_bind_congr fun p => Plan.ofEntries_canonical hs
    simp only [Statement.canonical, render, Run.outcome_map_eq_ok, hselect]
  | delete s =>
    have hdelete : ∀ f, delete d s.canonical values = .ok f ↔ delete d s values = .ok f :=
      fun f => Run.outcome_bind_congr fun p => Plan.ofEntries_canonical hs
    simp only [Statement.canonical, render, Run.outcome_map_eq_ok, hdelete]
  | count s =>
    have hcount : ∀ f, count d s.canonical values = .ok f ↔ count d s values = .ok f :=
      fun f => Run.outcome_bind_congr fun p => Plan.ofEntries_canonical hs
    simp only [Statement.canonical, render, Run.outcome_map_eq_ok, hcount]
  | update s =>
    have hupdate : ∀ f, update d s.canonical values = .ok f ↔ update d s values = .ok f :=
      fun f => Run.outcome_bind_congr fun x => Plan.ofChanges_canonical hassign hs
    simp only [Statement.canonical, render, Run.outcome_map_eq_ok, hupdate]
  | insert _ | replace _ | create _ | drop _ | clear _ => exact Iff.rfl

end Sql

namespace Document

variable {values : List Value}

theorem clauseFree_assignChange (base : CollectionRef) (a : Assignment) :
    Walk.ClauseFree (assignChange base a) :=
  .bind (.resolve a.value) fun _ => .bind (.lift _) fun _ => .pure _

theorem render_canonical {s : Statement} (hs : ∀ e ∈ s.entries, e.Flat) {c : Command} :
    render s.canonical values = .ok c ↔ render s values = .ok c := by
  cases s with
  | find s => exact Run.outcome_bind_congr fun p => Plan.ofEntries_canonical hs
  | delete s => exact Run.outcome_bind_congr fun p => Plan.ofEntries_canonical hs
  | count s => exact Run.outcome_bind_congr fun p => Plan.ofEntries_canonical hs
  | update s =>
    exact Run.outcome_bind_congr fun x =>
      Plan.ofChanges_canonical (clauseFree_assignChange s.collection) hs
  | insert _ | replace _ | create _ | drop _ | clear _ => exact Iff.rfl

end Document

namespace Language

/-- **The order of the clauses plays no role**, in any language. Where no
assignment stands inside an operator, a statement can be rendered if its
canonical form can, and both are the same command. -/
theorem compile_canonical (l : Language) {s : Statement} (hs : ∀ e ∈ s.entries, e.Flat)
    (values : List Value) (c : Command) :
    l.compile s.canonical values = .ok c ↔ l.compile s values = .ok c := by
  cases l with
  | sql d => simp only [compile, Run.outcome_map_eq_ok, Sql.render_canonical hs]
  | document => simp only [compile, Run.outcome_map_eq_ok, Document.render_canonical hs]

/-- An update with a window in front of everything, and with a sort key, a join
and an operator over a group key alone between its conditions. -/
def scattered : Statement :=
  .update ⟨⟨"shop", "items"⟩,
    [.limit ⟨5, 0⟩,
      .operation .or [
        .orderBy ⟨⟨.plain "a", none⟩, .desc⟩,
        .condition ⟨.equals, ⟨.plain "b", none⟩, .prepared, none⟩,
        .join ⟨⟨"shop", "owners"⟩, .left, []⟩,
        .operation .not [.groupBy ⟨.plain "c", none⟩],
        .condition ⟨.lower, ⟨.plain "d", none⟩, .prepared, none⟩],
      .set ⟨.plain "e", .prepared, none⟩]⟩

theorem compile_scattered_canonical :
    scattered.canonical = .update ⟨⟨"shop", "items"⟩,
        [.join ⟨⟨"shop", "owners"⟩, .left, []⟩,
          .operation .or [
            .condition ⟨.equals, ⟨.plain "b", none⟩, .prepared, none⟩,
            .condition ⟨.lower, ⟨.plain "d", none⟩, .prepared, none⟩],
          .set ⟨.plain "e", .prepared, none⟩,
          .groupBy ⟨.plain "c", none⟩,
          .orderBy ⟨⟨.plain "a", none⟩, .desc⟩,
          .limit ⟨5, 0⟩]⟩ ∧
      ∃ q, (sql .sqlite).compile scattered.canonical [.int 1, .int 2, .int 3] = .ok (.sql q) ∧
        (sql .sqlite).compile scattered [.int 1, .int 2, .int 3] = .ok (.sql q) ∧
        q.text = "UPDATE \"items\" SET \"e\"=?LEFT JOIN \"owners\" WHERE (\"b\"=? OR \"d\"<?)" ++
          " GROUP BY \"c\" ORDER BY \"a\" DESC LIMIT ? OFFSET ?" := by
  have hflat : ∀ e ∈ scattered.entries, e.Flat := by
    simp [scattered, Statement.entries, Entry.Flat, Entry.parts, Entry.partsAll, Parts.none]
  have hq : (sql .sqlite).compile scattered.canonical [.int 1, .int 2, .int 3] = .ok (.sql _) := rfl
  refine ⟨rfl, _, hq, ?_, by decide +kernel⟩
  exact ((sql .sqlite).compile_canonical hflat [.int 1, .int 2, .int 3] _).1 hq

end Language

end QueryLayer
