import QueryLayer.Proofs.Sql.Filter
import QueryLayer.Proofs.Sql.Owed
import QueryLayer.Proofs.Sql.Unbound
import QueryLayer.Proofs.Walk.Run

/-!
# Traversing and planning come to the same

A search is rendered from its plan, and a traversal writes the same clauses while
it meets the entries (`Traversal.clauses_eq`). The two are run side by side: where the
traversal holds in its buffers what the walk has gathered (`Holds`), either both fail
with the same error, or the traversal has added the operands of the predicates that the
walk yields (`Traversal.agree_entry`). What stands before an operand is known from what was
written before it (`Traversal.behind`), which is why a first operand of a bracket asks for
`WHERE` to be there already.

What was said of the steps of a traversal is then said of the clauses that are rendered
(`Traversal.entry_writes_predicates`).
-/

namespace QueryLayer

namespace Sql

open Fragment

namespace Traversal

/-! ## Operands behind what was written -/

/-- Operands of a connector as they are added to the filter. -/
def behind (connector : OperationKind) (first opened : Bool) : List Fragment → Fragment
  | [] => []
  | f :: fs => lead connector first opened ++ (f ++
      fs.flatMap (.text (" " ++ connector.keyword ++ " ") :: ·))

variable {connector : OperationKind} {first opened : Bool}

theorem behind_append (fs gs : List Fragment) :
    behind connector first opened (fs ++ gs) = behind connector first opened fs ++
      behind connector (first && fs.isEmpty) (opened || !fs.isEmpty) gs := by
  cases fs with
  | nil => simp [behind]
  | cons f fs => cases gs <;> simp [behind, lead]

/-- Inside a bracket nothing stands before the first operand. -/
theorem behind_true (fs : List Fragment) :
    behind connector true opened fs = Fragment.join (" " ++ connector.keyword ++ " ") fs := by
  cases fs with
  | nil => rfl
  | cons f fs =>
    rw [join_cons]
    rfl

/-- The first operand of all stands behind `WHERE`. -/
theorem behind_start (ps : List Predicate) :
    behind .and false false (operandsAll false ps) = Sql.filter ps := by
  unfold Sql.filter
  cases operandsAll false ps with
  | nil => rfl
  | cons f fs =>
    simp only [join_cons]
    rfl

end Traversal

theorem operandsAll_append (negated : Bool) (ps qs : List Predicate) :
    operandsAll negated (ps ++ qs) = operandsAll negated ps ++ operandsAll negated qs := by
  induction ps with
  | nil => rfl
  | cons p ps ih => rw [List.cons_append, operandsAll, operandsAll, ih, List.append_assoc]

/-- A negation of each predicate is pushed inwards. -/
theorem operandsAll_map_not (negated : Bool) (ps : List Predicate) :
    operandsAll negated (ps.map .not) = operandsAll (!negated) ps := by
  induction ps with
  | nil => rfl
  | cons p ps ih => rw [List.map_cons, operandsAll, operandsAll, operands, ih]

theorem isEmpty_operandsAll (negated : Bool) (ps : List Predicate) :
    (operandsAll negated ps).isEmpty = ps.isEmpty := by
  cases ps with
  | nil => rfl
  | cons p ps =>
    have hne : operandsAll negated (p :: ps) ≠ [] := by simp [operandsAll_eq_nil_iff]
    simpa using hne

namespace Traversal

/-! ## Outcomes that agree -/

variable {α β γ δ : Type} {d : Dialect} {w w' : Walk} {t t' t'' : Traversal}

/-- Two outcomes agree: both are the same error, or both are values and states
between which something holds. -/
def Agree (R : α → Walk → β → Traversal → Prop) :
    Except QueryError (α × Walk) → EStateM.Result QueryError Traversal β → Prop
  | .ok (a, w), .ok b t => R a w b t
  | .error e, .error e' _ => e = e'
  | _, _ => False

variable {R : α → Walk → β → Traversal → Prop} {S : γ → Walk → δ → Traversal → Prop}
  {x : Walk.Step α} {y : Step β} {f : α → Walk.Step γ} {g : β → Step δ}

/-- Outcomes that agree are errors or values together. -/
theorem Agree.outcomes {r : Except QueryError (α × Walk)}
    {r' : EStateM.Result QueryError Traversal β} (h : Agree R r r') :
    (∃ e t', r = .error e ∧ r' = .error e t') ∨
      ∃ a w' b t', r = .ok (a, w') ∧ r' = .ok b t' ∧ R a w' b t' := by
  cases r with
  | error e =>
    cases r' with
    | error e' t' =>
      obtain rfl : e = e' := h
      exact .inl ⟨e, t', rfl, rfl⟩
    | ok b t' => exact h.elim
  | ok p =>
    cases r' with
    | error e' t' => exact h.elim
    | ok b t' => exact .inr ⟨p.1, p.2, b, t', rfl, rfl, h⟩

/-- Steps that agree, one behind the other. -/
theorem Agree.bind (h : Agree R (x w) (y.run t))
    (hf : ∀ a w' b t', R a w' b t' → Agree S (f a w') ((g b).run t')) :
    Agree S ((x >>= f) w) ((y >>= g).run t) := by
  obtain ⟨e, t', hx, hy⟩ | ⟨a, w', b, t', hx, hy, hR⟩ := h.outcomes
  · rw [Run.bind_of_error hx, EStateM.run_bind, hy]
    exact rfl
  · rw [Run.bind_of_ok hx, EStateM.run_bind, hy]
    exact hf a w' b t' hR

/-- What is made of a value in the end. -/
theorem Agree.map {r : EStateM.Result QueryError Traversal β} {k : α → γ}
    {S : γ → Walk → β → Traversal → Prop} (h : Agree R (x w) r)
    (hS : ∀ a w' b t', R a w' b t' → S (k a) w' b t') :
    Agree S ((x >>= fun a => pure (k a)) w) r := by
  obtain ⟨e, t', hx, rfl⟩ | ⟨a, w', b, t', hx, rfl, hR⟩ := h.outcomes
  · rw [Run.bind_of_error hx]
    exact rfl
  · rw [Run.bind_of_ok hx]
    exact hS a w' b t' hR

/-- What is done finally to the value and the state of the traversal. -/
theorem Agree.finished {r : Except QueryError (α × Walk)}
    {r' : EStateM.Result QueryError Traversal β} (h : Agree R r r') (k : β → δ)
    (g : Traversal → Traversal) :
    Agree (fun a w' b t' => ∃ b' t'', R a w' b' t'' ∧ b = k b' ∧ t' = g t'') r
      (finished k g r') := by
  obtain ⟨e, t', rfl, rfl⟩ | ⟨a, w', b, t', rfl, rfl, hR⟩ := h.outcomes
  · exact rfl
  · exact ⟨b, t', hR, rfl, rfl⟩

/-- Fragments behind an opening, with a mark between each two. -/
def listed (opening : Fragment) (separator : String) : List Fragment → Fragment
  | [] => []
  | f :: fs => opening ++ Fragment.join separator (f :: fs)

/-- The traversal has in its buffers what the walk has gathered. -/
structure Holds (d : Dialect) (w : Walk) (t : Traversal) : Prop where
  supply : t.supply = w.supply
  join : t.join = listed [] " " (w.clauses.joins.map (Sql.join d))
  groupBy : t.groupBy = listed [.text " GROUP BY "] "," (w.clauses.groups.map target)
  orderBy : t.orderBy = listed [.text " ORDER BY "] "," (w.clauses.sorts.map sortKey)
  window : t.window = unbound (Sql.window d w.clauses.window)
  windowParams : t.windowParams = bound (Sql.window d w.clauses.window)
  hasLimit : t.hasLimit = w.clauses.window.isSome

theorem holds_start (d : Dialect) (values : List Value) : Holds d (Walk.start values) (start values) :=
  ⟨rfl, rfl, rfl, rfl, rfl, rfl, rfl⟩

/-- The traversal has added a fragment to the filter, its values apart. -/
structure Wrote (f : Fragment) (opened : Bool) (t t' : Traversal) : Prop where
  filter : t'.filter = t.filter ++ unbound f
  filterParams : t'.filterParams = t.filterParams ++ bound f
  opened : t'.opened = opened
  negate : t'.negate = t.negate

theorem Wrote.trans {f g : Fragment} {b b' : Bool} (h : Wrote f b t t') (h' : Wrote g b' t' t'') :
    Wrote (f ++ g) b' t t'' where
  filter := by rw [h'.filter, h.filter, unbound_append, List.append_assoc]
  filterParams := by rw [h'.filterParams, h.filterParams, bound_append, List.append_assoc]
  opened := h'.opened
  negate := h'.negate.trans h.negate

/-! ## Conditions -/

/-- Both take the same value. -/
theorem agree_resolve (h : t.supply = w.supply) (o : Operand) :
    Agree (fun v w' v' t' => v' = v ∧
        ∃ s, w' = { w with supply := s } ∧ t' = { t with supply := s })
      (Walk.resolve o w) ((resolve o).run t) := by
  cases hr : o.resolve w.supply with
  | error e => simp [Walk.resolve, resolve, EStateM.run, h, hr, Except.map, Agree]
  | ok r => simp [Walk.resolve, resolve, EStateM.run, h, hr, Except.map, Agree]

/-- What the two make of a condition. -/
def Tested (d : Dialect) (g : Target) (t : Traversal) (k : Criterion) (w' : Walk) (_ : Unit)
    (t' : Traversal) : Prop :=
  Holds d w' t' ∧ Wrote (test t.negate ⟨g, k⟩) t.opened t t'

theorem agree_compare (h : Holds d w t) (o : Operand) {g : Target} {f : Fragment}
    {k : Value → Criterion} (hunbound : ∀ v, unbound (test t.negate ⟨g, k v⟩) = f)
    (hbound : ∀ v, bound (test t.negate ⟨g, k v⟩) = [v]) :
    Agree (Tested d g t) ((Walk.resolve o >>= fun v => pure (k v)) w) ((compare f o).run t) := by
  change Agree _ _ ((resolve o >>= fun v => bindAll [v]).run { t with filter := t.filter ++ f })
  refine Agree.bind (agree_resolve (t := { t with filter := t.filter ++ f }) h.supply o) ?_
  rintro v w' v' t' ⟨rfl, s, rfl, rfl⟩
  refine ⟨{ h with supply := rfl }, ?_, ?_, rfl, rfl⟩
  · rw [hunbound]
  · rw [hbound]

theorem agree_oneOf (h : Holds d w t) (statement : String) (g : Target) (o : Operand)
    (upper : Option Operand) :
    Agree (Tested d g t) (Condition.criterion statement ⟨.oneOf, g, o, upper⟩ w)
      ((condition statement ⟨.oneOf, g, o, upper⟩).run t) := by
  rw [condition, EStateM.run_bind]
  refine Agree.bind (agree_resolve h.supply o) ?_
  rintro _ _ v _ ⟨rfl, s, rfl, rfl⟩
  dsimp only
  cases v.toItems.isEmpty with
  | true => exact rfl
  | false =>
    have hvalues : (v.toItems.mapIdx fun i u => (Slot.item i, u)).map Prod.snd = v.toItems := by
      apply List.ext_getElem <;> simp
    refine ⟨{ h with supply := rfl }, ?_, ?_, rfl, rfl⟩
    · simp [test, unbound_itemSlots]
    · rw [bound_test, criterionSlots, hvalues]

/-- The text of a range is written before either of its values is taken. -/
theorem agree_between (h : Holds d w t) (statement : String) (g : Target) (o upper : Operand) :
    Agree (Tested d g t) (Condition.criterion statement ⟨.between, g, o, some upper⟩ w)
      ((condition statement ⟨.between, g, o, some upper⟩).run t) := by
  let t₁ : Traversal := { t with
    filter := t.filter ++
      (negation t.negate ++ target g ++ [.text " BETWEEN ", mark, .text " AND ", mark]) }
  have hrun : (condition statement ⟨.between, g, o, some upper⟩).run t =
      (do let low ← resolve o
          let high ← resolve upper
          bindAll [low, high] : Step Unit).run t₁ := rfl
  rw [hrun]
  refine Agree.bind (agree_resolve (t := t₁) h.supply o) ?_
  rintro _ _ low _ ⟨rfl, s, rfl, rfl⟩
  refine Agree.bind (agree_resolve (t := { t₁ with supply := s }) rfl upper) ?_
  rintro _ _ high _ ⟨rfl, s', rfl, rfl⟩
  refine ⟨{ h with supply := rfl }, ?_, ?_, rfl, rfl⟩
  · simp [test, t₁]
  · rw [bound_test]
    rfl

/-- **A condition is traversed as it is walked.** -/
theorem agree_condition (h : Holds d w t) (statement : String) (c : Condition) :
    Agree (Tested d c.target t) (c.criterion statement w) ((condition statement c).run t) := by
  obtain ⟨kind, g, o, upper⟩ := c
  -- four kinds differ in their symbol only
  have hbound : ∀ (k : Value → Criterion), (∀ v, criterionSlots (k v) = [(.operand, v)]) →
      ∀ v, bound (test t.negate ⟨g, k v⟩) = [v] := by
    intro k hk v
    rw [bound_test, hk]
    rfl
  cases kind with
  | equals => exact agree_compare h o (fun v => by simp [test, comparison]) (hbound _ fun _ => rfl)
  | like => exact agree_compare h o (fun v => by simp [test, comparison]) (hbound _ fun _ => rfl)
  | lower => exact agree_compare h o (fun v => by simp [test, comparison]) (hbound _ fun _ => rfl)
  | higher => exact agree_compare h o (fun v => by simp [test, comparison]) (hbound _ fun _ => rfl)
  | null =>
    refine ⟨{ h with }, by simp [test], ?_, rfl, rfl⟩
    rw [bound_test]
    exact (List.append_nil _).symm
  | oneOf => exact agree_oneOf h statement g o upper
  | between =>
    cases upper with
    | none => exact rfl
    | some upper => exact agree_between h statement g o upper

/-- What the two make of a whole test: the back end refuses none. -/
theorem agree_resolveTest (h : Holds d w t) (statement : String) (c : Condition) :
    Agree (fun p w' _ t' => Holds d w' t' ∧ Wrote (test t.negate p) t.opened t t')
      (c.resolveTest (rules d statement) w) ((condition statement c).run t) := by
  have hresolve : c.resolveTest (rules d statement) w =
      (c.criterion statement >>= fun k => pure ⟨c.target, k⟩) w := rfl
  rw [hresolve]
  exact (agree_condition h statement c).map fun _ _ _ _ hk => hk

/-! ## Clauses -/

/-- A chain of fragments grows by one. -/
theorem chain_listed {opening : Fragment} {separator : String} {fs : List Fragment}
    (hne : ∀ f ∈ fs, opening ++ f ≠ []) (f : Fragment) :
    chain opening separator (listed opening separator fs) f =
      listed opening separator (fs ++ [f]) := by
  cases fs with
  | nil => simp [chain, listed, join_singleton]
  | cons g gs =>
    have hlisted : listed opening separator (g :: gs) ≠ [] := by
      rw [listed, join_cons, ← List.append_assoc]
      exact List.append_ne_nil_of_left_ne_nil (hne g (by simp)) _
    rw [chain, if_neg (by simpa using hlisted), List.cons_append, listed, listed, join_cons,
      join_cons]
    simp

/-- What the two make of an entry among the operands of a connector. Something is
written exactly where there are predicates. -/
structure Rendered (d : Dialect) (connector : OperationKind) (first writes : Bool)
    (t : Traversal) (ps : List Predicate) (w' : Walk) (written : Bool) (t' : Traversal) : Prop where
  written_eq : written = writes
  isEmpty_eq : ps.isEmpty = !writes
  holds : Holds d w' t'
  wrote : Wrote (behind connector first t.opened (operandsAll t.negate ps)) (t.opened || writes)
    t t'

/-- Other clauses add nothing to the filter. -/
theorem rendered_clause {connector : OperationKind} {first : Bool} (w' : Walk) (t' : Traversal)
    (h : Holds d w' t') (hfilter : t'.filter = t.filter) (hparams : t'.filterParams = t.filterParams)
    (hopened : t'.opened = t.opened) (hnegate : t'.negate = t.negate) :
    Rendered d connector first false t [] w' false t' where
  written_eq := rfl
  isEmpty_eq := rfl
  holds := h
  wrote :=
    { filter := by simp [hfilter, behind, operandsAll]
      filterParams := by simp [hparams, behind, operandsAll, bound]
      opened := by simp [hopened]
      negate := hnegate }

variable {connector : OperationKind} {first : Bool}

theorem agree_join (h : Holds d w t) (statement : String) (j : Join) :
    Agree (Rendered d connector first false t) (Entry.collect (rules d statement) (.join j) w)
      ((entry d statement connector first (.join j)).run t) := by
  have hjoins : chain [] " " t.join (Sql.join d j) =
      listed [] " " ((w.clauses.joins ++ [j]).map (Sql.join d)) := by
    rw [h.join, List.map_append]
    refine chain_listed (fun f hf => ?_) _
    obtain ⟨i, -, rfl⟩ := List.mem_map.1 hf
    simp [Sql.join]
  by_cases hfull : j.joinType = .full ∧ ¬ d.fullJoin
  · have hcheck : (rules d statement).join j = .error (.unsupported d.name (.joinType .full)) :=
      if_pos hfull
    rw [Entry.collect, hcheck, entry, addJoin, if_pos hfull]
    exact rfl
  · have hcheck : (rules d statement).join j = .ok () := if_neg hfull
    rw [Entry.collect, hcheck, entry, addJoin, if_neg hfull]
    exact rendered_clause { w with clauses := { w.clauses with joins := w.clauses.joins ++ [j] } }
      { t with join := chain [] " " t.join (Sql.join d j) } { h with join := hjoins }
      rfl rfl rfl rfl

theorem agree_sortKey (h : Holds d w t) (statement : String) (k : SortKey) :
    Agree (Rendered d connector first false t) (Entry.collect (rules d statement) (.orderBy k) w)
      ((entry d statement connector first (.orderBy k)).run t) := by
  have hsorts : chain [.text " ORDER BY "] "," t.orderBy (sortKey k) =
      listed [.text " ORDER BY "] "," ((w.clauses.sorts ++ [k]).map sortKey) := by
    rw [h.orderBy, List.map_append]
    exact chain_listed (by simp) _
  exact rendered_clause { w with clauses := { w.clauses with sorts := w.clauses.sorts ++ [k] } } _
    { h with orderBy := hsorts } rfl rfl rfl rfl

theorem agree_groupKey (h : Holds d w t) (statement : String) (g : Target) :
    Agree (Rendered d connector first false t) (Entry.collect (rules d statement) (.groupBy g) w)
      ((entry d statement connector first (.groupBy g)).run t) := by
  have hgroups : chain [.text " GROUP BY "] "," t.groupBy (target g) =
      listed [.text " GROUP BY "] "," ((w.clauses.groups ++ [g]).map target) := by
    rw [h.groupBy, List.map_append]
    exact chain_listed (by simp) _
  exact rendered_clause { w with clauses := { w.clauses with groups := w.clauses.groups ++ [g] } } _
    { h with groupBy := hgroups } rfl rfl rfl rfl

theorem agree_window (h : Holds d w t) (statement : String) (v : Window) :
    Agree (Rendered d connector first false t) (Entry.collect (rules d statement) (.limit v) w)
      ((entry d statement connector first (.limit v)).run t) := by
  rw [Entry.collect, entry, EStateM.run_bind]
  cases hwindow : w.clauses.window with
  | some u =>
    have hlimit : t.hasLimit = true := by
      rw [h.hasLimit, hwindow]
      rfl
    have hwalk : Walk.addWindow v w = .error .duplicateLimit := by
      simp only [Walk.addWindow, hwindow]
    have hrun : (addWindow d v).run t = .error .duplicateLimit t := by
      simp only [addWindow, EStateM.run, hlimit, if_true]
    rw [Run.bind_of_error hwalk, hrun]
    exact rfl
  | none =>
    have hlimit : t.hasLimit = false := by
      rw [h.hasLimit, hwindow]
      rfl
    have hempty : t.window = [] ∧ t.windowParams = [] := by
      rw [h.window, h.windowParams, hwindow]
      exact ⟨rfl, rfl⟩
    have hwalk : Walk.addWindow v w =
        .ok ((), { w with clauses := { w.clauses with window := some v } }) := by
      simp only [Walk.addWindow, hwindow]
    have hrun : (addWindow d v).run t = .ok () { t with
        hasLimit := true
        window := unbound (Sql.window d (some v))
        windowParams := bound (Sql.window d (some v)) } := by
      cases hstyle : d.limitStyle <;>
        simp [addWindow, EStateM.run, hlimit, hstyle, hempty, Sql.window] <;> rfl
    rw [Run.bind_of_ok hwalk, hrun]
    exact rendered_clause { w with clauses := { w.clauses with window := some v } } _
      { h with window := rfl, windowParams := rfl, hasLimit := rfl } rfl rfl rfl rfl

/-! ## Entries -/

theorem wrote_connected (connector : OperationKind) (first : Bool) (t : Traversal) :
    Wrote (lead connector first t.opened) (t.opened || !first) t (t.connected connector first) := by
  have hslots : slots (lead connector first t.opened) = [] := by
    unfold lead
    split
    · rfl
    · split <;> rfl
  refine ⟨?_, ?_, rfl, rfl⟩
  · rw [unbound_of_no_slots hslots]
    rfl
  · rw [bound_of_no_slots hslots, List.append_nil]
    rfl

/-- Brackets around what was written. -/
theorem Wrote.bracket {f : Fragment} {b : Bool} (h : Wrote f b t.openBracket t') :
    Wrote (negation t.negate ++ [.text "("] ++ f ++ [.text ")"]) b t
      (t'.closeBracket t.negate) where
  filter := by simp [closeBracket, h.filter, openBracket]
  filterParams := by
    have hbound : bound (negation t.negate ++ [.text "("] ++ f ++ [.text ")"]) = bound f := by
      rw [bound_eq_slots, bound_eq_slots f]
      simp
    rw [hbound]
    exact h.filterParams
  opened := h.opened
  negate := rfl

/-- An operator in brackets is one operand. -/
theorem operandsAll_combine {kind : OperationKind} (hkind : kind ≠ .not) {ps : List Predicate}
    (hps : ps.isEmpty = false) (negated : Bool) :
    operandsAll negated (kind.combine ps) = [bracket negated kind (operandsAll false ps)] := by
  cases kind with
  | not => exact absurd rfl hkind
  | and => simp [OperationKind.combine, hps, operandsAll, operands]
  | or => simp [OperationKind.combine, hps, operandsAll, operands]

theorem isEmpty_combine (kind : OperationKind) (ps : List Predicate) :
    (kind.combine ps).isEmpty = ps.isEmpty := by
  cases kind <;> cases ps <;> simp [OperationKind.combine]

variable (d) (statement : String)

variable {d statement} in
/-- An operator, in brackets where it holds a predicate. -/
theorem agree_group {kind : OperationKind} (hkind : kind ≠ .not) {es : List Entry}
    (h : Holds d w t) (hfirst : first = true → Entry.anyPredicate es = true → t.opened = true)
    (ih : ∀ t', Holds d w t' → (Entry.anyPredicate es = true → t'.opened = true) →
      Agree (Rendered d kind true (Entry.anyPredicate es) t')
        (Entry.collectAll (rules d statement) es w) ((render d statement kind true es).run t')) :
    Agree (Rendered d connector first (Entry.anyPredicate es) t)
      ((Entry.collectAll (rules d statement) es >>= fun ps => pure (kind.combine ps)) w)
      ((if Entry.anyPredicate es then do
          connect connector first
          bracketed (render d statement kind true es)
        else render d statement kind true es).run t) := by
  cases hany : Entry.anyPredicate es with
  | false =>
    rw [hany] at ih
    refine (ih t h (by simp)).map fun ps w' b t' hr => ?_
    obtain rfl : ps = [] := by simpa using hr.isEmpty_eq
    have hnil : kind.combine [] = [] := List.isEmpty_iff.1 (isEmpty_combine kind [])
    rw [hnil]
    exact { hr with }
  | true =>
    rw [hany] at ih
    have hopened : (t.opened || !first) = true := by
      cases first with
      | true => simp [hfirst rfl hany]
      | false => simp
    change Agree _ _ ((bracketed _).run (t.connected connector first))
    rw [run_bracketed]
    have hinside := ih (t.connected connector first).openBracket { h with } fun _ => hopened
    refine (hinside.finished (fun _ => true) _).map fun ps w' b t' hr => ?_
    obtain ⟨b', t'', hr, rfl, rfl⟩ := hr
    have hps : ps.isEmpty = false := hr.isEmpty_eq
    refine ⟨rfl, by rw [isEmpty_combine, hps]; rfl, { hr.holds with }, ?_⟩
    have hwrote := (wrote_connected connector first t).trans hr.wrote.bracket
    have htext : behind connector first t.opened (operandsAll t.negate (kind.combine ps)) =
        lead connector first t.opened ++ (negation t.negate ++ [.text "("] ++
          behind kind true (t.opened || !first) (operandsAll false ps) ++ [.text ")"]) := by
      rw [operandsAll_combine hkind hps, behind_true]
      simp [behind, bracket]
    rw [htext]
    exact { hwrote with opened := by simpa using hwrote.opened }

mutual

/-- **An entry is traversed as it is walked.** -/
theorem agree_entry : ∀ (connector : OperationKind) (first : Bool) (e : Entry) (w : Walk)
    (t : Traversal), Holds d w t → (first = true → e.isPredicate = true → t.opened = true) →
      Agree (Rendered d connector first e.isPredicate t) (e.collect (rules d statement) w)
        ((entry d statement connector first e).run t)
  | connector, first, .condition c, w, t, h, hfirst => by
    have hopened : (t.opened || !first) = true := by
      cases first with
      | true => simp [hfirst rfl rfl]
      | false => simp
    rw [Entry.collect, entry, EStateM.run_bind]
    refine Agree.bind (agree_resolveTest (t := t.connected connector first) { h with } statement c)
      fun p w' _ t' hr => ?_
    refine ⟨rfl, rfl, hr.1, ?_⟩
    have hwrote := (wrote_connected connector first t).trans hr.2
    have htext : behind connector first t.opened (operandsAll t.negate [.test p]) =
        lead connector first t.opened ++ test t.negate p := by
      simp [behind, operandsAll, operands]
    rw [htext]
    have hafter : t'.opened = (t.opened || Entry.isPredicate (.condition c)) := by
      rw [hwrote.opened, Entry.isPredicate, Bool.or_true]
      exact hopened
    exact { hwrote with opened := hafter }
  | connector, first, .operation .not es, w, t, h, hfirst => by
    have hinside := agree_render connector first es w { t with negate := !t.negate } { h with }
      hfirst
    change Agree _ _ ((negated (render d statement connector first es)).run t)
    rw [run_negated]
    refine (hinside.finished id _).map fun ps w' b t' hr => ?_
    obtain ⟨b, t'', hr, rfl, rfl⟩ := hr
    refine ⟨hr.written_eq, by rw [isEmpty_combine]; exact hr.isEmpty_eq, { hr.holds with }, ?_⟩
    rw [OperationKind.combine, operandsAll_map_not]
    exact { hr.wrote with negate := rfl }
  | connector, first, .operation .and es, w, t, h, hfirst => by
    exact agree_group (by simp) h hfirst fun t' ht hopened =>
      agree_render .and true es w t' ht fun _ => hopened
  | connector, first, .operation .or es, w, t, h, hfirst => by
    exact agree_group (by simp) h hfirst fun t' ht hopened =>
      agree_render .or true es w t' ht fun _ => hopened
  | _, _, .join j, w, t, h, _ => agree_join h statement j
  | _, _, .limit v, w, t, h, _ => agree_window h statement v
  | _, _, .orderBy k, w, t, h, _ => agree_sortKey h statement k
  | _, _, .groupBy g, w, t, h, _ => agree_groupKey h statement g
  | _, _, .set _, _, _, _, _ => rfl

/-- The same for several entries. -/
theorem agree_render : ∀ (connector : OperationKind) (first : Bool) (es : List Entry) (w : Walk)
    (t : Traversal), Holds d w t →
      (first = true → Entry.anyPredicate es = true → t.opened = true) →
      Agree (Rendered d connector first (Entry.anyPredicate es) t)
        (Entry.collectAll (rules d statement) es w)
        ((render d statement connector first es).run t)
  | _, _, [], w, t, h, _ => rendered_clause w t h rfl rfl rfl rfl
  | connector, first, e :: es, w, t, h, hfirst => by
    refine Agree.bind (agree_entry connector first e w t h fun hf he => hfirst hf ?_)
      fun ps w' b t' hr => ?_
    · simp [Entry.anyPredicate, he]
    obtain ⟨rfl, hps, hholds, hwrote⟩ := hr
    refine Agree.bind (agree_render connector (first && !e.isPredicate) es w' t' hholds ?_)
      fun qs w'' b' t'' hr => ?_
    · intro hf hes
      rw [hwrote.opened, hfirst (by simp_all) (by simp [Entry.anyPredicate, hes])]
      rfl
    obtain ⟨rfl, hqs, hholds', hwrote'⟩ := hr
    have hempty : (ps ++ qs).isEmpty = (ps.isEmpty && qs.isEmpty) := by cases ps <;> rfl
    refine ⟨rfl, by rw [hempty, hps, hqs, Entry.anyPredicate, Bool.not_or], hholds', ?_⟩
    have htext : behind connector first t.opened (operandsAll t.negate (ps ++ qs)) =
        behind connector first t.opened (operandsAll t.negate ps) ++
          behind connector (first && !e.isPredicate) t'.opened (operandsAll t'.negate qs) := by
      rw [operandsAll_append, behind_append, isEmpty_operandsAll, hps, Bool.not_not,
        hwrote.opened, hwrote.negate]
    rw [htext]
    exact { hwrote.trans hwrote' with
      opened := by rw [hwrote'.opened, hwrote.opened, Entry.anyPredicate, Bool.or_assoc] }

end

/-! ## Searches -/

theorem joins_eq_listed (d : Dialect) (js : List Join) :
    joins d js = listed [] " " (js.map (Sql.join d)) := by
  cases js <;> rfl

theorem groupBy_eq_listed (gs : List Target) :
    Sql.groupBy gs = listed [.text " GROUP BY "] "," (gs.map target) := by
  cases gs <;> rfl

/-- The sort keys, and what stands in for them before a window. -/
theorem orderBy_eq_listed (d : Dialect) (c : Clauses) :
    Sql.orderBy d c =
      if c.window.isSome ∧ (listed [.text " ORDER BY "] "," (c.sorts.map sortKey)).isEmpty ∧
          d.limitStyle = .offsetFetch then [.text " ORDER BY (SELECT NULL)"]
      else listed [.text " ORDER BY "] "," (c.sorts.map sortKey) := by
  obtain ⟨js, gs, ks, v⟩ := c
  cases ks with
  | nil => simp [Sql.orderBy, listed]
  | cons k ks => simp [Sql.orderBy, listed]

/-- What is finished are the clauses of the plan and their values. -/
theorem finish_eq (h : Holds d w t) {ps : List Predicate}
    (hfilter : t.filter = unbound (Sql.filter ps))
    (hparams : t.filterParams = bound (Sql.filter ps)) :
    t.finish d =
      (d.write (Sql.clauses d ⟨w.clauses, ps⟩), bound (Sql.clauses d ⟨w.clauses, ps⟩)) := by
  have horder := orderBy_eq_listed d w.clauses
  rw [← h.orderBy, ← h.hasLimit] at horder
  have hjoins : bound (joins d w.clauses.joins) = [] := bound_of_no_slots (slots_joins d _)
  have hgroups : bound (Sql.groupBy w.clauses.groups) = [] := bound_of_no_slots (slots_groupBy _)
  have hsorts : bound (Sql.orderBy d w.clauses) = [] := bound_of_no_slots (slots_orderBy d _)
  rw [finish, ← horder, buffers, params, h.join, h.groupBy, hfilter, hparams, h.window,
    h.windowParams, ← joins_eq_listed, ← groupBy_eq_listed]
  simp only [Dialect.write, Sql.clauses, write_append, write_unbound, bound_append, hjoins, hgroups,
    hsorts, List.nil_append, List.append_nil]

variable {d} in
/-- A traversal from its start is finished with the clauses of the plan. -/
theorem finish_of_wrote (h : Holds d w t) {ps : List Predicate} {values : List Value} {opened : Bool}
    (hwrote : Wrote (behind .and false false (operandsAll false ps)) opened (start values) t) :
    t.finish d =
      (d.write (Sql.clauses d ⟨w.clauses, ps⟩), bound (Sql.clauses d ⟨w.clauses, ps⟩)) := by
  have htext : behind .and false false (operandsAll false ps) = Sql.filter ps := behind_start ps
  refine finish_eq d h ?_ ?_
  · rw [hwrote.filter, ← htext]
    rfl
  · rw [hwrote.filterParams, ← htext]
    rfl

/-- Pushing entries one by one is rendering them as operands of `AND`. -/
theorem run_pushAll (es : List Entry) (t : Traversal) :
    (forM es (push d statement)).run t =
      finished (fun _ => ()) id ((render d statement .and false es).run t) := by
  induction es generalizing t with
  | nil => rfl
  | cons e es ih =>
    rw [List.forM_cons, render, EStateM.run_bind, EStateM.run_bind, push, run_discard]
    cases (entry d statement .and false e).run t with
    | error err t' => rfl
    | ok b t' =>
      dsimp only [finished, id]
      rw [ih, EStateM.run_bind, Bool.false_and]
      cases (render d statement .and false es).run t' <;> rfl

/-- **Traversing and planning come to the same**: the same clauses with the same
values, or the same error. -/
theorem clauses_eq (es : List Entry) (values : List Value) :
    clauses d statement es values =
      (Plan.ofEntries (rules d statement) es values).map fun p =>
        (d.write (Sql.clauses d p), bound (Sql.clauses d p)) := by
  have h := agree_render d statement .and false es _ _ (holds_start d values) (by simp)
  rw [clauses, run_pushAll, Plan.ofEntries, StateT.run]
  obtain ⟨e, t', hwalk, hrun⟩ | ⟨ps, w', b, t', hwalk, hrun, hrendered⟩ := h.outcomes
  · rw [hwalk, hrun]
    rfl
  · rw [hwalk, hrun]
    exact congrArg Except.ok (finish_of_wrote hrendered.holds hrendered.wrote)

/-- **An entry writes to the filter where it is a predicate, and nowhere else.** The
traversal, which comes to the clauses and values of the plan of a search, takes any
entry in any state, as an operand of any connector: where it succeeds it says whether
the entry is a predicate, adds to the filter as many question marks as values, and
leaves the filter as it was where the entry is none. The flag of the negation is what
it was before on both outcomes. -/
theorem entry_writes_predicates (d : Dialect) (statement : String) :
    (∀ (es : List Entry) (values : List Value),
      clauses d statement es values =
        (Plan.ofEntries (rules d statement) es values).map fun p =>
          (d.write (Sql.clauses d p), bound (Sql.clauses d p))) ∧
    ∀ (connector : OperationKind) (first : Bool) (e : Entry) (t : Traversal),
      match (entry d statement connector first e).run t with
      | .ok written t' =>
        written = e.isPredicate ∧ t'.negate = t.negate ∧
        (∃ f vs, t'.filter = t.filter ++ f ∧ t'.filterParams = t.filterParams ++ vs ∧
          marks d.quotes f = vs.length) ∧
        marks d.quotes t'.buffers + t.params.length =
          marks d.quotes t.buffers + t'.params.length ∧
        (written = false → t'.filter = t.filter ∧ t'.filterParams = t.filterParams ∧
          t'.opened = t.opened)
      | .error _ t' => t'.negate = t.negate ∧ t.filter <+: t'.filter := by
  refine ⟨clauses_eq d statement, fun connector first e t => ?_⟩
  have hsound := sound_entry d.quotes d statement connector first e t
  generalize (entry d statement connector first e).run t = r at hsound ⊢
  cases r with
  | error err t' => exact ⟨hsound.negate, hsound.filter⟩
  | ok written t' =>
    obtain ⟨rfl, hpassed⟩ := hsound
    exact ⟨rfl, hpassed.negate, hpassed.exists_added, hpassed.marks_buffers, hpassed.silent⟩

/-- A negated bracket with a list of two values and an empty bracket beside it, and a
window behind: the flag is set, put back and set again inside, the question mark of the
name does not count, and each of the four others has its value. -/
theorem entry_of_negatedBracket_writes_predicates :
    let a : Condition :=
      ⟨.oneOf, ⟨⟨none, none, "a?"⟩, none⟩, .literal (.list [.int 1, .int 2]), none⟩
    let e : Entry := .operation .not
      [.operation .or [.condition a, .operation .and []], .limit ⟨20, 40⟩]
    ∃ t', (entry .mssql "find" .and false e).run (start []) = .ok true t' ∧
      e.isPredicate = true ∧ t'.negate = false ∧
      t'.filter = [.text " WHERE ", .text "NOT ", .text "(", .name "a?", .text " IN (", mark,
        .text ",", mark, .text ")", .text ")"] ∧
      t'.params = [.int 1, .int 2, rowCount 40, rowCount 20] ∧
      marks (Dialect.quotes .mssql) t'.buffers = t'.params.length := by
  intro a e
  have h := (entry_writes_predicates .mssql "find").2 .and false e (start [])
  have hrun : (entry .mssql "find" .and false e).run (start []) = .ok true { start [] with
      filter := [.text " WHERE ", .text "NOT ", .text "(", .name "a?", .text " IN (", mark,
        .text ",", mark, .text ")", .text ")"]
      filterParams := [.int 1, .int 2]
      opened := true
      hasLimit := true
      window := [.text " OFFSET ", mark, .text " ROWS FETCH NEXT ", mark, .text " ROWS ONLY"]
      windowParams := [rowCount 40, rowCount 20] } := rfl
  rw [hrun] at h
  obtain ⟨hpredicate, hnegate, -, hmarks, -⟩ := h
  exact ⟨_, hrun, hpredicate.symm, hnegate, rfl, rfl, hmarks.trans (Nat.zero_add _)⟩

end Traversal

end Sql

end QueryLayer
