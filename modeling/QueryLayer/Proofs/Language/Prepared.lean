import QueryLayer.Proofs.Walk.Substitutes
import QueryLayer.Language

/-!
# Runtime values are substituted

In every language a statement with markers becomes what the statement becomes in
which the values stand in the place of the markers (`compile_substitutes`). Two
back ends were written apart and emit their clauses in orders of their own, but
both collect a plan first, and the walk that makes it takes the values in one
order. What is left to show here is that nothing but the walk asks for a value.
-/

namespace QueryLayer

namespace Search

/-- The search with values in the place of its markers. -/
def fill (vs : List Value) (s : Search) : Search := { s with entries := Entry.fillAll vs s.entries }

end Search

namespace Find

/-- The find with values in the place of its markers. -/
def fill (vs : List Value) (s : Find) : Find := { s with entries := Entry.fillAll vs s.entries }

end Find

namespace Create

/-- The create with values in the place of the markers of its search. -/
def fill (vs : List Value) (s : Create) : Create := { s with included := s.included.map (Find.fill vs) }

end Create

namespace Statement

/-- The number of markers of a statement. A create has those of its search. The
cells of an insert follow rules of their own and are not counted. -/
def markers : Statement → ℕ
  | .find s => Entry.markersAll s.entries
  | .update s | .delete s | .replace s | .count s => Entry.markersAll s.entries
  | .create s => (s.included.map fun find => Entry.markersAll find.entries).getD 0
  | .insert _ | .drop _ | .clear _ => 0

/-- The statement with values in the place of its markers. -/
def fill (vs : List Value) : Statement → Statement
  | .find s => .find (s.fill vs)
  | .update s => .update (s.fill vs)
  | .delete s => .delete (s.fill vs)
  | .replace s => .replace (s.fill vs)
  | .count s => .count (s.fill vs)
  | .create s => .create (s.fill vs)
  | s => s

end Statement

/-! ## SQL -/

namespace Sql

variable (d : Dialect)

theorem blind_rules (statement : String) : (rules d statement).Blind := fun _ _ => rfl

theorem substitutes_select (s : Find) :
    Substitutes (Entry.markersAll s.entries) (fun vs => select d s vs)
      fun vs => select d (s.fill vs) [] :=
  (Plan.substitutes_ofEntries (blind_rules d "find") s.entries).bind _

theorem substitutes_delete (s : Search) :
    Substitutes (Entry.markersAll s.entries) (fun vs => delete d s vs)
      fun vs => delete d (s.fill vs) [] :=
  (Plan.substitutes_ofEntries (blind_rules d "delete") s.entries).bind _

theorem substitutes_count (s : Search) :
    Substitutes (Entry.markersAll s.entries) (fun vs => count d s vs)
      fun vs => count d (s.fill vs) [] :=
  (Plan.substitutes_ofEntries (blind_rules d "count") s.entries).bind _

theorem substitutes_update (s : Search) :
    Substitutes (Entry.markersAll s.entries) (fun vs => update d s vs)
      fun vs => update d (s.fill vs) [] := by
  have hassign : ∀ a : Assignment, Takes Walk.mk a.value.markers
      (do return assignment a (← Walk.resolve a.value))
      fun vs => do return assignment (a.fill vs) (← Walk.resolve (a.fill vs).value) := by
    intro a
    exact (Walk.takes_resolve a.value).bind fun v => .pure (assignment a v)
  exact (Plan.substitutes_ofChanges (blind_rules d "update") hassign s.entries).bind _

/-- The columns of a replace take their values in order. -/
theorem takes_replacements (es : List Entry) :
    Takes (fun s (_ : Unit) => s) (Entry.markersAll es) (replacements d es)
      fun vs => replacements d (Entry.fillAll vs es) := by
  have hresolve : ∀ o : Operand,
      Takes (fun s (_ : Unit) => s) o.markers o.resolve fun vs => (o.fill vs).resolve := by
    refine .of_resolve fun o s c => ?_
    cases o.resolve s <;> rfl
  induction es with
  | nil => exact .pure _
  | cons e es ih =>
    simp only [replacements, List.mapM_cons, Entry.fillAll, Entry.markersAll] at ih ⊢
    cases e with
    | set a =>
      simp only [Entry.fill, Entry.markers]
      cases ho : a.operator with
      | none =>
        simp only [Assignment.fill, ho]
        exact ((hresolve a.value).bind fun v => .pure (a.field, v)).bind fun x =>
          ih.bind fun xs => .pure _
      | some op =>
        simp only [Assignment.fill, ho]
        exact .fail _ _
    | condition _ | operation _ _ | join _ | limit _ | orderBy _ | groupBy _ =>
      exact .fail _ _

theorem substitutes_replace (s : Search) :
    Substitutes (Entry.markersAll s.entries) (fun vs => replace d s vs)
      fun vs => replace d (s.fill vs) [] := by
  unfold replace
  by_cases hs : d.replaceStyle = .unsupported
  · simp only [if_pos hs]
    exact .fail _ _
  · simp only [if_neg hs]
    exact .of_takes (takes_replacements d s.entries) () fun _ _ _ _ => rfl

theorem substitutes_included (s : Create) :
    Substitutes (Statement.create s).markers (fun vs => included d s vs)
      fun vs => included d (s.fill vs) [] := by
  cases hs : s.included with
  | none =>
    simp only [included, Create.fill, Statement.markers, hs, Option.map_none, Option.getD_none]
    exact .const _
  | some find =>
    simp only [included, Create.fill, Statement.markers, hs, Option.map_some, Option.getD_some]
    by_cases hd : (!d.createSelect) = true
    · simp only [if_pos hd]
      exact .fail _ _
    · simp only [if_neg hd]
      exact (substitutes_select d find).bind _

theorem substitutes_create (s : Create) :
    Substitutes (Statement.create s).markers (fun vs => create d s vs)
      fun vs => create d (s.fill vs) [] := by
  have hlines : ∀ lines : List Fragment, Substitutes (Statement.create s).markers
      (fun vs => do
        let select ← included d s vs
        return (⟨d.quotes, .text "CREATE TABLE IF NOT EXISTS " :: (d.table s.collection ++
          [.text "("] ++ Fragment.join "," lines ++ [.text ")"] ++ engine d s ++ select ++
          [.text ";"]), s.definitions.flatMap (afterDefinition d s.collection)⟩ : Query))
      fun vs => do
        let select ← included d (s.fill vs) []
        return (⟨d.quotes, .text "CREATE TABLE IF NOT EXISTS " :: (d.table s.collection ++
          [.text "("] ++ Fragment.join "," lines ++ [.text ")"] ++ engine d s ++ select ++
          [.text ";"]), s.definitions.flatMap (afterDefinition d s.collection)⟩ : Query) :=
    fun lines => (substitutes_included d s).bind _
  unfold create
  by_cases hs : s.definitions.isEmpty
  · have hfill : ∀ vs, (s.fill vs).definitions.isEmpty := fun _ => hs
    simp only [if_pos hs, if_pos (hfill _)]
    exact .fail _ _
  · have hfill : ∀ vs, ¬(s.fill vs).definitions.isEmpty := fun _ => hs
    simp only [if_neg hs, if_neg (hfill _)]
    exact .after hlines

/-- **A statement in SQL depends on the values of its markers.** -/
theorem substitutes_render {s : Statement} (hs : ∀ i, s ≠ .insert i) :
    Substitutes s.markers (fun vs => render d s vs) fun vs => render d (s.fill vs) [] := by
  cases s with
  | insert s => exact absurd rfl (hs s)
  | find s => exact (substitutes_select d s).map _
  | update s => exact (substitutes_update d s).map _
  | delete s => exact (substitutes_delete d s).map _
  | replace s => exact (substitutes_replace d s).map _
  | create s => exact substitutes_create d s
  | drop target => exact .const _
  | clear c => exact .const _
  | count s => exact (substitutes_count d s).map _

end Sql

/-! ## The document store -/

namespace Document

theorem blind_rules : rules.Blind := by
  intro c vs
  simp [rules]

theorem substitutes_find (s : Find) :
    Substitutes (Entry.markersAll s.entries) (fun vs => find s vs) fun vs => find (s.fill vs) [] :=
  (Plan.substitutes_ofEntries blind_rules s.entries).bind _

theorem substitutes_count (s : Search) :
    Substitutes (Entry.markersAll s.entries) (fun vs => count s vs)
      fun vs => count (s.fill vs) [] :=
  (Plan.substitutes_ofEntries blind_rules s.entries).bind _

theorem substitutes_delete (s : Search) :
    Substitutes (Entry.markersAll s.entries) (fun vs => delete s vs)
      fun vs => delete (s.fill vs) [] :=
  (Plan.substitutes_ofEntries blind_rules s.entries).bind _

/-- A change takes the value it is made with. -/
theorem takes_assignChange (base : CollectionRef) (a : Assignment) :
    Takes Walk.mk a.value.markers (assignChange base a) fun vs => assignChange base (a.fill vs) :=
  (Walk.takes_resolve a.value).bind fun v => (Walk.takes_lift (change a.operator v)).bind fun c =>
    .pure (FieldChange.mk c.1 (path base a.field) c.2)

/-- Content takes its value, unless it is refused. -/
theorem takes_assignContent (base : CollectionRef) (a : Assignment) :
    Takes Walk.mk a.value.markers (assignContent base a)
      fun vs => assignContent base (a.fill vs) := by
  unfold assignContent
  by_cases ha : a.operator.isSome
  · have hfill : ∀ vs, (a.fill vs).operator.isSome := fun _ => ha
    simp only [if_pos ha, if_pos (hfill _)]
    exact .fail _ _
  · have hfill : ∀ vs, ¬(a.fill vs).operator.isSome := fun _ => ha
    simp only [if_neg ha, if_neg (hfill _)]
    exact (Walk.takes_resolve a.value).bind fun v => .pure (path base a.field, v)

theorem substitutes_update (s : Search) :
    Substitutes (Entry.markersAll s.entries) (fun vs => update s vs)
      fun vs => update (s.fill vs) [] :=
  (Plan.substitutes_ofChanges blind_rules (takes_assignChange s.collection) s.entries).bind _

theorem substitutes_replace (s : Search) :
    Substitutes (Entry.markersAll s.entries) (fun vs => replace s vs)
      fun vs => replace (s.fill vs) [] :=
  (Plan.substitutes_ofChanges blind_rules (takes_assignContent s.collection) s.entries).bind _

/-- The store refuses a create that holds a search. -/
theorem substitutes_create (s : Create) :
    Substitutes (Statement.create s).markers (fun _ => create s) fun vs => create (s.fill vs) := by
  cases hs : s.included with
  | none =>
    simp only [create, Create.fill, Statement.markers, hs, Option.map_none, Option.getD_none]
    exact .const _
  | some find =>
    simp only [create, Create.fill, hs, Option.map_some, Option.isSome_some, if_true]
    exact .fail _ _

/-- **A command of the document store depends on the values of the markers.** -/
theorem substitutes_render {s : Statement} (hs : ∀ i, s ≠ .insert i) :
    Substitutes s.markers (fun vs => render s vs) fun vs => render (s.fill vs) [] := by
  cases s with
  | insert s => exact absurd rfl (hs s)
  | find s => exact substitutes_find s
  | update s => exact substitutes_update s
  | delete s => exact substitutes_delete s
  | replace s => exact substitutes_replace s
  | create s => exact substitutes_create s
  | drop target => exact .const _
  | clear c => exact .const _
  | count s => exact substitutes_count s

end Document

/-! ## Every language -/

namespace Language

/-- The command of a statement depends on the values of its markers. -/
theorem substitutes_compile (l : Language) {s : Statement} (hs : ∀ i, s ≠ .insert i) :
    Substitutes s.markers (fun vs => l.compile s vs) fun vs => l.compile (s.fill vs) [] := by
  cases l with
  | sql d => exact (Sql.substitutes_render d hs).map _
  | document => exact (Document.substitutes_render hs).map _

/-- **Runtime values are substituted for markers**, in every language. With at
least as many values as there are markers, a statement becomes what the filled
statement becomes without values, or fails as that does, and more values change
nothing. With fewer it fails; and if some completion to a value for each marker
would give a command, the error names the first value that is missing. -/
theorem compile_substitutes (l : Language) {s : Statement} (hs : ∀ i, s ≠ .insert i)
    (values : List Value) :
    (s.markers ≤ values.length → l.compile s values = l.compile (s.fill values) []) ∧
      (s.markers ≤ values.length → ∀ more, l.compile s (values ++ more) = l.compile s values) ∧
      (values.length < s.markers → ∃ e, l.compile s values = .error e ∧
        ((∃ completion c, (values ++ completion).length = s.markers ∧
            l.compile s (values ++ completion) = .ok c) →
          e = .missingPreparedValue values.length)) := by
  have h := l.substitutes_compile hs
  refine ⟨h.fills values, fun hvalues more => h.extra values more hvalues, fun hlt => ?_⟩
  obtain ⟨e, he, hmore⟩ := h.starves values hlt
  refine ⟨e, he, ?_⟩
  rintro ⟨completion, c, -, hc⟩
  exact hmore completion c hc

/-- An update whose assignment stands between its filters, with the operands
that the caller gives. -/
def interleaved (lower upper assigned : Operand) : Statement :=
  .update ⟨⟨"shop", "items"⟩,
    [.operation .not [.condition ⟨.between, ⟨.plain "a", none⟩, lower, some upper⟩],
      .set ⟨.plain "b", assigned, some .subtract⟩,
      .condition ⟨.null, ⟨.plain "c", none⟩, .prepared, none⟩]⟩

theorem compile_interleaved_substitutes :
    document.compile (interleaved .prepared .prepared .prepared) [.int 1, .int 2, .int 3] =
        document.compile
          (interleaved (.literal (.int 1)) (.literal (.int 2)) (.literal (.int 3))) [] ∧
      document.compile (interleaved .prepared .prepared .prepared) [.int 1, .int 2] =
        .error (.missingPreparedValue 2) := by
  have hs : ∀ i, interleaved .prepared .prepared .prepared ≠ .insert i := by rintro i ⟨⟩
  obtain ⟨hfills, -, -⟩ := document.compile_substitutes hs [.int 1, .int 2, .int 3]
  obtain ⟨-, -, hstarves⟩ := document.compile_substitutes hs [.int 1, .int 2]
  have hmarkers : (interleaved .prepared .prepared .prepared).markers = 3 := rfl
  refine ⟨hfills (Nat.le_of_eq hmarkers), ?_⟩
  have hshort : [Value.int 1, Value.int 2].length <
      (interleaved .prepared .prepared .prepared).markers := by
    rw [hmarkers]
    exact Nat.lt_succ_self 2
  obtain ⟨e, he, hmissing⟩ := hstarves hshort
  rw [he, hmissing ⟨[.int 3], _, rfl, rfl⟩]
  rfl

end Language

end QueryLayer
