import QueryLayer.Proofs.Sql.Legible
import QueryLayer.Proofs.Sql.Traversal

/-!
# What a traversal keeps and owes

A question mark is written in one step and its value is bound in another, and
between the two a value is owed. `Traversal.Sound` says of a step how many values it
owes when it succeeds, and what it keeps whether it succeeds or not: the flag of the
negation and what stands in the filter. Sound steps in a row are sound and owe what
each of them owes (`Sound.bind`).

An entry is then sound, and owes nothing, by the recursion that renders it
(`sound_entry`). The same recursion shows that `Entry.isPredicate` says what
rendering writes.
-/

namespace QueryLayer

namespace Sql

/-! ## Question marks -/

/-- The piece is a name. -/
def Piece.isName : Piece → Bool
  | .name _ => true
  | _ => false

namespace Fragment

variable {q : Text.Quotes}

/-- The number of question marks outside names. -/
def marks (q : Text.Quotes) (f : Fragment) : ℕ := (write q (f.filter (!·.isName))).count '?'

@[simp] theorem marks_nil : marks q [] = 0 := rfl

@[simp] theorem marks_append (f g : Fragment) : marks q (f ++ g) = marks q f + marks q g := by
  simp [marks]

@[simp] theorem marks_name_cons (n : String) (f : Fragment) : marks q (.name n :: f) = marks q f :=
  rfl

@[simp] theorem marks_text_cons (s : String) (f : Fragment) :
    marks q (.text s :: f) = s.toList.count '?' + marks q f := by
  have hfilter : (Piece.text s :: f).filter (!·.isName) = .text s :: f.filter (!·.isName) := rfl
  rw [marks, hfilter, write, List.flatMap_cons, List.count_append]
  rfl

theorem marks_flatten {fs : List Fragment} (h : ∀ f ∈ fs, marks q f = 0) :
    marks q fs.flatten = 0 := by
  induction fs with
  | nil => rfl
  | cons f fs ih =>
    rw [List.flatten_cons, marks_append, h f (by simp), ih fun g hg => h g (by simp [hg])]

/-- What separates fragments brings no question mark if it holds none. -/
theorem marks_join {mark : String} (hmark : mark.toList.count '?' = 0) :
    ∀ fs : List Fragment, marks q (join mark fs) = marks q fs.flatten
  | [] => rfl
  | [f] => by simp [join_singleton]
  | f :: g :: fs => by
    rw [join_cons_cons, marks_append, marks_text_cons, hmark, marks_join hmark (g :: fs),
      Nat.zero_add, List.flatten_cons (l := f), marks_append]

end Fragment

open Fragment

variable {q : Text.Quotes}

@[simp] theorem marks_fieldName (f : FieldRef) : marks q (fieldName f) = 0 := by
  rw [fieldName, marks_join (by decide)]
  refine marks_flatten fun f hf => ?_
  obtain ⟨part, -, rfl⟩ := List.mem_map.1 hf
  rfl

@[simp] theorem marks_target (t : Target) : marks q (target t) = 0 := by
  obtain ⟨field, aggregation⟩ := t
  cases aggregation with
  | none => exact marks_fieldName field
  | some a =>
    have hopen : (a.keyword ++ "(").toList.count '?' = 0 := by cases a <;> decide
    simp only [target, marks_text_cons, hopen, marks_append, marks_fieldName, marks_nil]
    decide

@[simp] theorem marks_negation (negated : Bool) : marks q (negation negated) = 0 := by
  cases negated <;> rfl

@[simp] theorem marks_table (d : Dialect) (c : CollectionRef) : marks q (d.table c) = 0 := by
  unfold Dialect.table
  cases d.environment <;> rfl

@[simp] theorem marks_column (d : Dialect) (c : Option CollectionRef) (name : String) :
    marks q (column d c name) = 0 := by
  cases c with
  | none => rfl
  | some c =>
    rw [column, marks_append, marks_table]
    rfl

@[simp] theorem marks_joinPairs (d : Dialect) (pairs : List JoinPair) :
    marks q (joinPairs d pairs) = 0 := by
  refine marks_flatten fun f hf => ?_
  obtain ⟨i, hi, rfl⟩ := List.mem_mapIdx.1 hf
  have hword : (if i = 0 then " ON " else " AND ").toList.count '?' = 0 := by split <;> decide
  simp [hword]

@[simp] theorem marks_join_clause (d : Dialect) (j : Join) : marks q (Sql.join d j) = 0 := by
  have hword : (j.joinType.keyword ++ " JOIN ").toList.count '?' = 0 := by
    cases j.joinType <;> decide
  rw [Sql.join, marks_text_cons, hword, marks_append, marks_table, marks_joinPairs]

@[simp] theorem marks_sortKey (k : SortKey) : marks q (sortKey k) = 0 := by
  have hword : (" " ++ k.order.keyword).toList.count '?' = 0 := by cases k.order <;> decide
  rw [sortKey, marks_append, marks_target, marks_text_cons, hword, marks_nil]

namespace Traversal

@[simp] theorem marks_lead (connector : OperationKind) (first opened : Bool) :
    marks q (lead connector first opened) = 0 := by
  cases first <;> cases opened <;> cases connector <;> rfl

/-- Nothing without question marks brings one into a chain. -/
theorem marks_chain {opening f : Fragment} {separator : String} (hopening : marks q opening = 0)
    (hseparator : separator.toList.count '?' = 0) (hf : marks q f = 0) (buffer : Fragment) :
    marks q (chain opening separator buffer f) = marks q buffer := by
  unfold chain
  split <;> simp [hopening, hseparator, hf]

/-! ## What a step keeps and owes -/

/-- The values that the filter owes to its question marks. -/
def filterOwed (q : Text.Quotes) (t : Traversal) : ℤ := marks q t.filter - t.filterParams.length

/-- The values that the other clauses owe to theirs. -/
def otherOwed (q : Text.Quotes) (t : Traversal) : ℤ :=
  marks q (t.join ++ t.groupBy ++ t.orderBy ++ t.window) - t.windowParams.length

/-- What no outcome of a step undoes. -/
structure Kept (t t' : Traversal) : Prop where
  negate : t'.negate = t.negate
  filter : t.filter <+: t'.filter
  filterParams : t.filterParams <+: t'.filterParams

/-- A step that succeeded with so many values owed. One that `writes` nothing to the
filter leaves it, its values and the flag of `WHERE` alone. -/
structure Passed (q : Text.Quotes) (writes : Bool) (owed : ℤ) (t t' : Traversal) : Prop
    extends Kept t t' where
  filterOwed : t'.filterOwed q = t.filterOwed q + owed
  otherOwed : t'.otherOwed q = t.otherOwed q
  silent : writes = false →
    t'.filter = t.filter ∧ t'.filterParams = t.filterParams ∧ t'.opened = t.opened

/-- A step that keeps what must be kept, whether it fails or not, and that yields
values with a property. -/
def Sound (q : Text.Quotes) (writes : Bool) (owed : ℤ) (P : α → Prop) (x : Step α) : Prop :=
  ∀ t, match x.run t with
    | .ok a t' => P a ∧ Passed q writes owed t t'
    | .error _ t' => Kept t t'

variable {writes writes' : Bool} {owed owed' : ℤ} {t t' t'' : Traversal} {P : α → Prop}
  {R : β → Prop} {x : Step α} {f : α → Step β}

theorem Kept.refl (t : Traversal) : Kept t t := ⟨rfl, List.prefix_rfl, List.prefix_rfl⟩

theorem Kept.trans (h : Kept t t') (h' : Kept t' t'') : Kept t t'' :=
  ⟨h'.negate.trans h.negate, h.filter.trans h'.filter, h.filterParams.trans h'.filterParams⟩

theorem Passed.refl (t : Traversal) : Passed q writes 0 t t where
  toKept := .refl t
  filterOwed := (Int.add_zero _).symm
  otherOwed := rfl
  silent _ := ⟨rfl, rfl, rfl⟩

theorem Passed.trans (h : Passed q writes owed t t') (h' : Passed q writes owed' t' t'') :
    Passed q writes (owed + owed') t t'' where
  toKept := h.toKept.trans h'.toKept
  filterOwed := by rw [h'.filterOwed, h.filterOwed, Int.add_assoc]
  otherOwed := h'.otherOwed.trans h.otherOwed
  silent hw := by
    obtain ⟨hfilter, hparams, hopened⟩ := h.silent hw
    obtain ⟨hfilter', hparams', hopened'⟩ := h'.silent hw
    exact ⟨hfilter'.trans hfilter, hparams'.trans hparams, hopened'.trans hopened⟩

/-- What a step does to the other clauses, where it brings question marks only
together with their values. -/
theorem Passed.beside (hnegate : t'.negate = t.negate) (hfilter : t'.filter = t.filter)
    (hparams : t'.filterParams = t.filterParams) (hopened : t'.opened = t.opened)
    (howed : t'.otherOwed q = t.otherOwed q) : Passed q writes 0 t t' where
  negate := hnegate
  filter := hfilter ▸ List.prefix_rfl
  filterParams := hparams ▸ List.prefix_rfl
  filterOwed := by simp only [Traversal.filterOwed, hfilter, hparams, Int.add_zero]
  otherOwed := howed
  silent _ := ⟨hfilter, hparams, hopened⟩

/-- Where nothing is owed, as many question marks were added to the filter as values. -/
theorem Passed.exists_added (h : Passed q writes 0 t t') :
    ∃ f vs, t'.filter = t.filter ++ f ∧ t'.filterParams = t.filterParams ++ vs ∧
      marks q f = vs.length := by
  obtain ⟨f, hf⟩ := h.filter
  obtain ⟨vs, hvs⟩ := h.filterParams
  refine ⟨f, vs, hf.symm, hvs.symm, ?_⟩
  have howed := h.filterOwed
  rw [Traversal.filterOwed, Traversal.filterOwed, ← hf, ← hvs, marks_append,
    List.length_append] at howed
  omega

/-- The same for all clauses together. -/
theorem Passed.marks_buffers (h : Passed q writes 0 t t') :
    marks q t'.buffers + t.params.length = marks q t.buffers + t'.params.length := by
  have hfilter := h.filterOwed
  have hother := h.otherOwed
  simp only [Traversal.filterOwed, Traversal.otherOwed, marks_append] at hfilter hother
  simp only [buffers, params, marks_append, List.length_append]
  omega

/-- A step that writes nothing may be taken for one that does. -/
theorem Sound.weaken (h : Sound q writes owed P x) (hw : writes = true → writes' = true) :
    Sound q writes' owed P x := by
  intro t
  have hx := h t
  generalize x.run t = r at hx ⊢
  cases r with
  | error e t' => exact hx
  | ok a t' =>
    obtain ⟨ha, hpassed⟩ := hx
    refine ⟨ha, { hpassed with silent := fun hw' => hpassed.silent ?_ }⟩
    cases writes with
    | false => rfl
    | true => exact absurd (hw rfl) (by simp [hw'])

theorem Sound.pure {a : α} (ha : P a) : Sound q writes 0 P (pure a) := fun t => ⟨ha, .refl t⟩

theorem Sound.throw (e : QueryError) : Sound q writes owed P (throw e : Step α) := fun t => .refl t

/-- **Sound steps in a row are sound**, and owe what each of them owes. -/
theorem Sound.bind (hx : Sound q writes owed P x) (hf : ∀ a, P a → Sound q writes owed' R (f a)) :
    Sound q writes (owed + owed') R (x >>= f) := by
  intro t
  rw [EStateM.run_bind]
  have hx := hx t
  generalize x.run t = r at hx ⊢
  cases r with
  | error e t' => exact hx
  | ok a t' =>
    obtain ⟨ha, hpassed⟩ := hx
    have hf := hf a ha t'
    dsimp only
    generalize (f a).run t' = r at hf ⊢
    cases r with
    | error e t'' => exact hpassed.toKept.trans hf
    | ok b t'' => exact ⟨hf.1, hpassed.trans hf.2⟩

/-- Behind a step that owes nothing. -/
theorem Sound.next (hx : Sound q writes 0 P x) (hf : ∀ a, P a → Sound q writes owed R (f a)) :
    Sound q writes owed R (x >>= f) := by
  simpa using hx.bind hf

/-- Behind a step whose debt is paid. -/
theorem Sound.settle (hx : Sound q writes owed P x)
    (hf : ∀ a, P a → Sound q writes (-owed) R (f a)) : Sound q writes 0 R (x >>= f) := by
  simpa [Int.add_right_neg] using hx.bind hf

/-- A step that is known to succeed. -/
theorem sound_modify {g : Traversal → Traversal} (h : ∀ t, Passed q writes owed t (g t)) :
    Sound q writes owed (fun _ => True) (modify g) := fun t => ⟨True.intro, h t⟩

theorem sound_get : Sound q writes 0 (fun _ => True) (get : Step Traversal) := fun t =>
  ⟨True.intro, .refl t⟩

theorem sound_write {f : Fragment} {n : ℕ} (hf : marks q f = n) :
    Sound q true n (fun _ => True) (write f) :=
  sound_modify fun t =>
    { negate := rfl
      filter := List.prefix_append _ _
      filterParams := List.prefix_rfl
      filterOwed := by
        simp only [filterOwed, marks_append, hf]
        omega
      otherOwed := rfl
      silent := fun h => absurd h (by simp) }

theorem sound_bindAll (vs : List Value) :
    Sound q true (-vs.length) (fun _ => True) (bindAll vs) :=
  sound_modify fun t =>
    { negate := rfl
      filter := List.prefix_rfl
      filterParams := List.prefix_append _ _
      filterOwed := by
        simp only [filterOwed, List.length_append]
        omega
      otherOwed := rfl
      silent := fun h => absurd h (by simp) }

theorem sound_resolve (o : Operand) : Sound q writes 0 (fun _ => True) (resolve o) := by
  intro t
  cases h : o.resolve t.supply with
  | error e => simpa [resolve, EStateM.run, h] using Kept.refl t
  | ok r =>
    simp only [resolve, EStateM.run, h]
    exact ⟨True.intro, ⟨rfl, List.prefix_rfl, List.prefix_rfl⟩, (Int.add_zero _).symm, rfl,
      fun _ => ⟨rfl, rfl, rfl⟩⟩

/-! ## Conditions and clauses -/

theorem sound_connect (connector : OperationKind) (first : Bool) :
    Sound q true 0 (fun _ => True) (connect connector first) :=
  sound_modify fun t =>
    { negate := rfl
      filter := List.prefix_append _ _
      filterParams := List.prefix_rfl
      filterOwed := by simp [filterOwed, connected]
      otherOwed := rfl
      silent := fun h => absurd h (by simp) }

theorem sound_compare {f : Fragment} (hf : marks q f = 1) (o : Operand) :
    Sound q true 0 (fun _ => True) (compare f o) :=
  (sound_write hf).settle fun _ _ => (sound_resolve o).next fun v _ => sound_bindAll [v]

/-- Marks with commas between them. -/
theorem marks_replicate_mark (n : ℕ) :
    marks q (Fragment.join "," (List.replicate n [mark])) = n := by
  rw [marks_join (by decide)]
  induction n with
  | zero => rfl
  | succ n ih =>
    have hmark : marks q [mark] = 1 := rfl
    rw [List.replicate_succ, List.flatten_cons, marks_append, hmark, ih, Nat.add_comm]

/-- **A condition writes one question mark for each value it binds.** -/
theorem sound_condition (statement : String) (c : Condition) :
    Sound q true 0 (fun _ => True) (condition statement c) := by
  refine sound_get.next fun t _ => ?_
  cases c.kind with
  | equals | like | lower | higher =>
    refine sound_compare ?_ c.value
    simp only [marks_append, marks_negation, marks_target]
    rfl
  | null =>
    refine sound_write (n := 0) ?_
    simp only [marks_append, marks_negation, marks_target]
    rfl
  | oneOf =>
    refine (sound_resolve c.value).next fun v _ => ?_
    dsimp only
    split
    · exact Sound.throw _
    · refine Sound.settle (sound_write ?_) fun _ _ => sound_bindAll v.toItems
      have hopen : marks q [.text " IN ("] = 0 := rfl
      have hclose : marks q [.text ")"] = 0 := rfl
      simp only [marks_append, marks_negation, marks_target, marks_replicate_mark, hopen, hclose,
        Nat.zero_add, Nat.add_zero]
  | between =>
    cases c.upperBound with
    | none => exact Sound.throw _
    | some upper =>
      refine Sound.settle (sound_write (n := 2) ?_) fun _ _ => (sound_resolve c.value).next
        fun low _ => (sound_resolve upper).next fun high _ => sound_bindAll [low, high]
      simp only [marks_append, marks_negation, marks_target]
      rfl

theorem sound_addJoin (d : Dialect) (j : Join) :
    Sound q writes 0 (fun _ => True) (addJoin d j) := by
  unfold addJoin
  split
  · exact Sound.throw _
  · refine sound_modify fun t => .beside rfl rfl rfl rfl ?_
    have hblank : " ".toList.count '?' = 0 := by decide
    simp only [otherOwed, marks_append,
      marks_chain marks_nil hblank (marks_join_clause d j) t.join]

theorem sound_addSortKey (k : SortKey) : Sound q writes 0 (fun _ => True) (addSortKey k) := by
  refine sound_modify fun t => .beside rfl rfl rfl rfl ?_
  have hopening : marks q [.text " ORDER BY "] = 0 := rfl
  have hcomma : ",".toList.count '?' = 0 := by decide
  simp only [otherOwed, marks_append, marks_chain hopening hcomma (marks_sortKey k) t.orderBy]

theorem sound_addGroupKey (g : Target) : Sound q writes 0 (fun _ => True) (addGroupKey g) := by
  refine sound_modify fun t => .beside rfl rfl rfl rfl ?_
  have hopening : marks q [.text " GROUP BY "] = 0 := rfl
  have hcomma : ",".toList.count '?' = 0 := by decide
  simp only [otherOwed, marks_append, marks_chain hopening hcomma (marks_target g) t.groupBy]

/-- A window writes two question marks and binds two values. -/
theorem sound_addWindow (d : Dialect) (w : Window) :
    Sound q writes 0 (fun _ => True) (addWindow d w) := by
  intro t
  cases hlimit : t.hasLimit with
  | true => simpa [addWindow, EStateM.run, hlimit] using Kept.refl t
  | false =>
    have hrows : marks q [.text " LIMIT ", mark, .text " OFFSET ", mark] = 2 := rfl
    have hfetch : marks q [.text " OFFSET ", mark, .text " ROWS FETCH NEXT ", mark,
      .text " ROWS ONLY"] = 2 := rfl
    cases hstyle : d.limitStyle with
    | limitOffset =>
      simp only [addWindow, EStateM.run, hlimit, hstyle]
      refine ⟨True.intro, .beside rfl rfl rfl rfl ?_⟩
      simp only [otherOwed, marks_append, hrows, List.length_append, List.length_cons,
        List.length_nil]
      omega
    | offsetFetch =>
      simp only [addWindow, EStateM.run, hlimit, hstyle]
      refine ⟨True.intro, .beside rfl rfl rfl rfl ?_⟩
      simp only [otherOwed, marks_append, hfetch, List.length_append, List.length_cons,
        List.length_nil]
      omega

/-! ## Negations and brackets -/

/-- An outcome with something done to its value, and to its state also where it is an
error. -/
def finished (k : α → β) (g : Traversal → Traversal) :
    EStateM.Result QueryError Traversal α → EStateM.Result QueryError Traversal β
  | .ok a t => .ok (k a) (g t)
  | .error e t => .error e (g t)

theorem run_finally (x : Step α) (g : Traversal → Traversal) (t : Traversal) :
    (tryFinally x (modify g : Step PUnit)).run t = finished id g (x.run t) := by
  simp only [tryFinally, MonadFinally.tryFinally', EStateM.run, Functor.map, EStateM.map]
  cases x t <;> rfl

theorem run_discard (x : Step α) (t : Traversal) :
    (discard x).run t = finished (fun _ => ()) id (x.run t) := by
  simp only [discard, Functor.discard, Functor.mapConst, Function.comp_apply, EStateM.run,
    EStateM.map]
  cases x t <;> rfl

theorem run_negated (x : Step α) (t : Traversal) :
    (negated x).run t =
      finished id ({ · with negate := t.negate }) (x.run { t with negate := !t.negate }) := by
  simp only [negated, EStateM.run_bind, EStateM.run_get, EStateM.run_modify, run_finally]

theorem run_bracketed (x : Step α) (t : Traversal) :
    (bracketed x).run t =
      finished (fun _ => true) (closeBracket t.negate) (x.run t.openBracket) := by
  simp only [bracketed, EStateM.run_bind, EStateM.run_get, EStateM.run_modify, run_finally,
    run_discard]
  cases x.run t.openBracket <;> rfl

theorem Sound.negated (h : Sound q writes owed P x) : Sound q writes owed P (negated x) := by
  intro t
  rw [run_negated]
  have hx := h { t with negate := !t.negate }
  generalize x.run { t with negate := !t.negate } = r at hx ⊢
  cases r with
  | error e t' => exact { hx with negate := rfl }
  | ok a t' => exact ⟨hx.1, { hx.2 with negate := rfl }⟩

theorem Kept.closeBracket (h : Kept t.openBracket t') : Kept t (t'.closeBracket t.negate) where
  negate := rfl
  filter := by
    have hopen : t.filter <+: t.openBracket.filter := by simp [openBracket, List.append_assoc]
    exact (hopen.trans h.filter).trans (List.prefix_append _ _)
  filterParams := h.filterParams

theorem Passed.closeBracket (h : Passed q true owed t.openBracket t') :
    Passed q true owed t (t'.closeBracket t.negate) where
  toKept := h.toKept.closeBracket
  filterOwed := by
    have hopen : marks q [.text "("] = 0 := rfl
    have hclose : marks q [.text ")"] = 0 := rfl
    have howed := h.filterOwed
    simp only [Traversal.filterOwed, Traversal.closeBracket, openBracket, marks_append,
      marks_negation, hopen, hclose] at howed ⊢
    exact howed
  otherOwed := h.otherOwed
  silent hw := absurd hw (by simp)

/-- **A bracket is closed and the flag put back on both outcomes.** -/
theorem Sound.bracketed (h : Sound q true owed P x) :
    Sound q true owed (· = true) (bracketed x) := by
  intro t
  rw [run_bracketed]
  have hx := h t.openBracket
  generalize x.run t.openBracket = r at hx ⊢
  cases r with
  | error e t' => exact hx.closeBracket
  | ok a t' => exact ⟨rfl, hx.2.closeBracket⟩

/-! ## Entries -/

variable (q) (d : Dialect) (statement : String)

variable {q d statement} in
/-- An operator in brackets, or without them where it holds no predicate. -/
theorem sound_group (connector : OperationKind) (first : Bool) {kind : OperationKind}
    {es : List Entry} (h : Sound q (Entry.anyPredicate es) 0 (· = Entry.anyPredicate es)
      (render d statement kind true es)) :
    Sound q (Entry.anyPredicate es) 0 (· = Entry.anyPredicate es)
      (if Entry.anyPredicate es then do
        connect connector first
        bracketed (render d statement kind true es)
      else render d statement kind true es) := by
  split
  · next hany =>
    rw [hany] at h ⊢
    exact (sound_connect connector first).next fun _ _ => h.bracketed
  · exact h

mutual

/-- **Rendering an entry is sound**, and writes a predicate exactly where the entry
is one. -/
theorem sound_entry : ∀ (connector : OperationKind) (first : Bool) (e : Entry),
    Sound q e.isPredicate 0 (· = e.isPredicate) (entry d statement connector first e)
  | connector, first, .condition c => by
    rw [entry, Entry.isPredicate]
    exact (sound_connect connector first).next fun _ _ =>
      (sound_condition statement c).next fun _ _ => .pure rfl
  | connector, first, .operation .not es => by
    rw [entry, Entry.isPredicate]
    exact (sound_render connector first es).negated
  | connector, first, .operation .and es => by
    rw [Entry.isPredicate]
    exact sound_group connector first (sound_render .and true es)
  | connector, first, .operation .or es => by
    rw [Entry.isPredicate]
    exact sound_group connector first (sound_render .or true es)
  | _, _, .join j =>
    (sound_addJoin d j).next fun _ _ => .pure rfl
  | _, _, .limit w =>
    (sound_addWindow d w).next fun _ _ => .pure rfl
  | _, _, .orderBy k =>
    (sound_addSortKey k).next fun _ _ => .pure rfl
  | _, _, .groupBy g =>
    (sound_addGroupKey g).next fun _ _ => .pure rfl
  | _, _, .set _ => Sound.throw _

/-- The same for several entries. -/
theorem sound_render : ∀ (connector : OperationKind) (first : Bool) (es : List Entry),
    Sound q (Entry.anyPredicate es) 0 (· = Entry.anyPredicate es)
      (render d statement connector first es)
  | _, _, [] => Sound.pure rfl
  | connector, first, e :: es => by
    rw [render, Entry.anyPredicate]
    refine Sound.next ((sound_entry connector first e).weaken (by simp_all)) fun written hw => ?_
    refine Sound.next ((sound_render connector _ es).weaken (by simp_all)) fun more hm => ?_
    exact Sound.pure (by rw [hw, hm])

end

end Traversal

end Sql

end QueryLayer
