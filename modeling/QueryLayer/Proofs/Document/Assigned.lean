import QueryLayer.Proofs.Decimal.Whole
import QueryLayer.Proofs.Document.Changes
import QueryLayer.Proofs.Language.Canonical
import QueryLayer.Proofs.Language.Prepared
import QueryLayer.Proofs.Walk.Success

/-!
# What becomes of assignments

An update document holds its operands by operator and then by path, and a
replacement holds its values by path. Both are filled from the assignments of a
statement in order, so of several that meet at one key the last one stays and the
others are lost (`last_assignments_stay`). A difference is a sum and a quotient is
a product, so these meet although they were different calculations. SQL writes
every assignment.
-/

namespace QueryLayer

namespace Document

/-! ## What assignments ask for -/

/-- What a calculation with a value asks of the store: the operator and its
operand. A difference adds the opposite number, and a quotient multiplies by the
reciprocal, where there is one. -/
inductive Asks : Option Arithmetic → Value → UpdateOperator → Value → Prop
  | set (v : Value) : Asks none v .set v
  | add (v : Value) : Asks (some .add) v .inc v
  | subtractInt {n : Int64} (hn : n ≠ Int64.minValue) :
      Asks (some .subtract) (.int n) .inc (.int (-n))
  | subtractFloat (x : Float) : Asks (some .subtract) (.float x) .inc (.float (-x))
  | multiply (v : Value) : Asks (some .multiply) v .mul v
  | divideInt {n : Int64} (hn : n ≠ 0) :
      Asks (some .divide) (.int n) .mul (.float (1.0 / Decimal.ofInt64 n))
  | divideFloat {x : Float} (hx : (x == 0.0) = false) :
      Asks (some .divide) (.float x) .mul (.float (1.0 / x))

theorem negate_eq_ok {v w : Value} : negate v = .ok w ↔ Asks (some .subtract) v .inc w := by
  constructor
  · intro h
    cases v with
    | int n =>
      rw [negate] at h
      split at h
      · cases h
      · next hn =>
        cases h
        exact .subtractInt hn
    | float x =>
      cases h
      exact .subtractFloat x
    | null | bool _ | text _ | list _ | blob _ => cases h
  · intro h
    cases h with
    | subtractInt hn => rw [negate, if_neg hn]
    | subtractFloat x => rfl

theorem reciprocal_eq_ok {v w : Value} : reciprocal v = .ok w ↔ Asks (some .divide) v .mul w := by
  -- an integer is refused as the double that it becomes
  have hdivide (x : Float) : (do
      if x == 0.0 then throw (unsupported .divisionByZero)
      return Value.float (1.0 / x) : Except QueryError Value) = .ok w ↔
        (x == 0.0) = false ∧ w = .float (1.0 / x) := by
    cases hx : x == 0.0 with
    | true =>
      constructor
      · intro h
        cases h
      · rintro ⟨h, -⟩
        cases h
    | false => exact ⟨fun h => ⟨rfl, (Except.ok.inj h).symm⟩, fun h => congrArg Except.ok h.2.symm⟩
  cases v with
  | int n =>
    refine (hdivide (Decimal.ofInt64 n)).trans ?_
    rw [Decimal.ofInt64_beq_zero, beq_eq_false_iff_ne]
    constructor
    · rintro ⟨hn, rfl⟩
      exact .divideInt hn
    · rintro ⟨⟩
      next hn => exact ⟨hn, rfl⟩
  | float x =>
    refine (hdivide x).trans ?_
    constructor
    · rintro ⟨hx, rfl⟩
      exact .divideFloat hx
    · rintro ⟨⟩
      next hx => exact ⟨hx, rfl⟩
  | null | bool _ | text _ | list _ | blob _ =>
    constructor
    · intro h
      cases h
    · intro h
      cases h

/-- **A change is what the assignment asks for.** -/
theorem change_eq_ok {operator : Option Arithmetic} {v w : Value} {op : UpdateOperator} :
    change operator v = .ok (op, w) ↔ Asks operator v op w := by
  match operator with
  | none =>
    constructor
    · intro h
      cases h
      exact .set v
    · intro h
      cases h
      rfl
  | some .add =>
    constructor
    · intro h
      cases h
      exact .add v
    · intro h
      cases h
      rfl
  | some .multiply =>
    constructor
    · intro h
      cases h
      exact .multiply v
    · intro h
      cases h
      rfl
  | some .subtract =>
    rw [change, Run.outcome_map_eq_ok]
    simp only [negate_eq_ok]
    constructor
    · rintro ⟨u, hu, hpair⟩
      cases hpair
      exact hu
    · intro h
      cases h with
      | subtractInt hn => exact ⟨_, .subtractInt hn, rfl⟩
      | subtractFloat x => exact ⟨_, .subtractFloat x, rfl⟩
  | some .divide =>
    rw [change, Run.outcome_map_eq_ok]
    simp only [reciprocal_eq_ok]
    constructor
    · rintro ⟨u, hu, hpair⟩
      cases hpair
      exact hu
    · intro h
      cases h with
      | divideInt hn => exact ⟨_, .divideInt hn, rfl⟩
      | divideFloat hx => exact ⟨_, .divideFloat hx, rfl⟩

/-- The assignment asks for the change of its field. -/
def Requests (base : CollectionRef) (a : Assignment) (c : FieldChange) : Prop :=
  ∃ v, a.value = .literal v ∧ Asks a.operator v c.operator c.value ∧ c.path = path base a.field

/-- The assignment gives the field of a replacement its value. It calculates
nothing. -/
def Supplies (base : CollectionRef) (a : Assignment) (f : String × Value) : Prop :=
  a.operator = none ∧ a.value = .literal f.2 ∧ f.1 = path base a.field

theorem assigns_assignChange (base : CollectionRef) :
    Assigns (assignChange base) (Requests base) where
  takes := takes_assignChange base
  clauseFree := clauseFree_assignChange base
  still a ha := by
    have hresolve := Walk.Still.resolve ha
    refine (hresolve.bind fun v => (Walk.Still.lift (change a.operator v)).bind fun c =>
      .pure (FieldChange.mk c.1 (path base a.field) c.2)).congr fun c => ?_
    obtain ⟨op, name, w⟩ := c
    simp only [Operand.gives_iff_eq_literal ha, Prod.exists, change_eq_ok]
    constructor
    · rintro ⟨v, hv, op', w', hasks, hc⟩
      cases hc
      exact ⟨v, hv, hasks, rfl⟩
    · rintro ⟨v, hv, hasks, rfl⟩
      exact ⟨v, hv, op, w, hasks, rfl⟩

theorem assigns_assignContent (base : CollectionRef) :
    Assigns (assignContent base) (Supplies base) where
  takes := takes_assignContent base
  clauseFree a := by
    unfold assignContent
    split
    · exact .stop _
    · exact .bind (.resolve _) fun _ => .pure _
  still a ha := by
    unfold assignContent
    split
    · next hop =>
      refine (Walk.Still.stop _).congr fun f => ?_
      rw [Supplies, Option.isSome_iff_ne_none] at *
      exact ⟨False.elim, fun h => hop h.1⟩
    · next hop =>
      refine (Walk.Still.resolve ha).bind_pure.congr fun f => ?_
      obtain ⟨name, w⟩ := f
      simp only [Operand.gives_iff_eq_literal ha]
      constructor
      · rintro ⟨v, hv, hf⟩
        cases hf
        exact ⟨by simpa using hop, hv, rfl⟩
      · rintro ⟨-, hw, rfl⟩
        exact ⟨w, hw, rfl⟩

/-! ## Commands that assign -/

variable {s : Search} {values : List Value} {c : Command}

/-- A filter carries a plan that has nothing beside its predicates. -/
theorem filterOnly_eq_ok {base : CollectionRef} {p : Plan} {statement : String} {f : Filter} :
    filterOnly base p statement = .ok f ↔ extraClause p.toClauses = none ∧
      f = .conjunction (Filter.ofPredicates base p.predicates) := by
  rw [filterOnly]
  cases extraClause p.toClauses <;> simp [eq_comm]

/-- What a statement that assigns does with its assignments and its plan. -/
theorem guarded_filterOnly_eq_ok {α : Type} {xs : List α} {p : Plan} {e : QueryError}
    {statement : String} {f : Filter → Command} : (do
      if xs.isEmpty then throw e
      let filter ← filterOnly s.collection p statement
      return f filter : Except QueryError Command) = .ok c ↔
        xs ≠ [] ∧ extraClause p.toClauses = none ∧
          c = f (.conjunction (Filter.ofPredicates s.collection p.predicates)) := by
  cases xs with
  | nil =>
    constructor
    · intro h
      cases h
    · rintro ⟨h, -⟩
      exact absurd rfl h
  | cons x xs =>
    refine Run.outcome_bind_eq_ok.trans ?_
    simp only [filterOnly_eq_ok]
    constructor
    · rintro ⟨filter, ⟨hextra, rfl⟩, hc⟩
      exact ⟨List.cons_ne_nil x xs, hextra, (Except.ok.inj hc).symm⟩
    · rintro ⟨-, hextra, rfl⟩
      exact ⟨_, ⟨hextra, rfl⟩, rfl⟩

theorem update_eq_ok : render (.update s) values = .ok c ↔ ∃ changes p,
    Plan.ofChanges rules (assignChange s.collection) s.entries values = .ok (changes, p) ∧
      changes ≠ [] ∧ extraClause p.toClauses = none ∧
      c = .update s.collection.name (.conjunction (Filter.ofPredicates s.collection p.predicates))
        (changes.foldl (fun acc c => acc.put c.operator c.path c.value) []) := by
  change update s values = .ok c ↔ _
  rw [update, Run.outcome_bind_eq_ok, Prod.exists]
  exact exists_congr fun changes => exists_congr fun p => and_congr_right fun _ =>
    guarded_filterOnly_eq_ok

theorem replace_eq_ok : render (.replace s) values = .ok c ↔ ∃ content p,
    Plan.ofChanges rules (assignContent s.collection) s.entries values = .ok (content, p) ∧
      content ≠ [] ∧ extraClause p.toClauses = none ∧
      c = .replace s.collection.name (.conjunction (Filter.ofPredicates s.collection p.predicates))
        (Keyed.ofPairs content) := by
  change replace s values = .ok c ↔ _
  rw [replace, Run.outcome_bind_eq_ok, Prod.exists]
  exact exists_congr fun content => exists_congr fun p => and_congr_right fun _ =>
    guarded_filterOnly_eq_ok

/-! ## Documents as they are read -/

/-- The members of an object. -/
def membersOf : Json → List (String × Json)
  | .object members => members
  | _ => []

/-- What the JSON of a command holds under a name. -/
def Command.member (name : String) (c : Command) : Json :=
  (Keyed.get? name (membersOf c.toJson)).getD .null

/-- The operands of an update document by operator and path. -/
def heldOperands (document : Json) : List ((String × String) × Json) :=
  (membersOf document).flatMap fun o => (membersOf o.2).map fun f => ((o.1, f.1), f.2)

/-- A change as it stands in an update document. -/
def FieldChange.member (c : FieldChange) : (String × String) × Json :=
  ((c.operator.name, c.path), c.value.toJson)

theorem name_injective : Function.Injective UpdateOperator.name := by
  intro a b h
  cases a <;> cases b <;> first | rfl | exact absurd h (by decide)

theorem heldOperands_update {collection : String} {filter : Filter} {changes : Changes} :
    heldOperands ((Command.update collection filter changes).member "update") =
      changes.pairs.map (Prod.map (Prod.map UpdateOperator.name id) Value.toJson) := by
  change (changes.map fun p => (p.1.name, documentJson p.2)).flatMap (fun o =>
    (membersOf o.2).map fun f => ((o.1, f.1), f.2)) = _
  simp only [List.flatMap_map, Changes.pairs, List.map_flatMap, List.map_map, documentJson, membersOf]
  rfl

theorem membersOf_replacement {collection : String} {filter : Filter}
    {content : List (String × Value)} :
    membersOf ((Command.replace collection filter content).member "replacement") =
      content.map (Prod.map id Value.toJson) :=
  rfl

end Document

/-- The assignments of the entries, at any depth, with the runtime values in their
places. -/
def Search.assigned (s : Search) (values : List Value) : List Assignment :=
  (Entry.partsAll (Entry.fillAll values s.entries)).assignments

namespace Document

variable {s : Search} {values : List Value} {c : Command}

/-- **Of assignments at one key the last one stays.** Each assignment of an
accepted update asks for one operand under an operator and a path. The update
document holds of each operator and path the operand that was asked for last, and
nothing else, so as many as there are assignments exactly if no two of them meet.
The same is true of the paths of a replacement. -/
theorem last_assignments_stay :
    (render (.update s) values = .ok c → ∃ changes,
      List.Forall₂ (Requests s.collection) (s.assigned values) changes ∧
        Keyed.LastStay (changes.map FieldChange.member) (heldOperands (c.member "update")) ∧
        ((heldOperands (c.member "update")).length = (s.assigned values).length ↔
          (changes.map fun x => (x.operator.name, x.path)).Nodup)) ∧
      (render (.replace s) values = .ok c → ∃ content,
        List.Forall₂ (Supplies s.collection) (s.assigned values) content ∧
          Keyed.LastStay (content.map (Prod.map id Value.toJson))
            (membersOf (c.member "replacement")) ∧
          ((membersOf (c.member "replacement")).length = (s.assigned values).length ↔
            (content.map Prod.fst).Nodup)) := by
  constructor
  · intro h
    obtain ⟨changes, p, hp, -, -, rfl⟩ := update_eq_ok.1 h
    -- the changes that are put are those that the assignments ask for
    obtain ⟨-, -, hchanges, -⟩ :=
      (Plan.ofChanges_eq_ok blind_rules (assigns_assignChange s.collection)).1 hp
    have hnames : Function.Injective (Prod.map UpdateOperator.name (id : String → String)) :=
      name_injective.prodMap Function.injective_id
    -- operators have names of their own, so the JSON keeps the keys apart
    have hmembers : changes.map FieldChange.member = (changes.map FieldChange.pair).map
        (Prod.map (Prod.map UpdateOperator.name id) Value.toJson) := by
      rw [List.map_map]
      rfl
    have hstay := (lastStay_foldl_put changes).map hnames Value.toJson
    rw [← hmembers, ← heldOperands_update] at hstay
    have hlength := hstay.length_eq_iff
    rw [List.length_map, ← hchanges.length_eq, List.map_map] at hlength
    exact ⟨changes, hchanges, hstay, hlength⟩
  · intro h
    obtain ⟨content, p, hp, -, -, rfl⟩ := replace_eq_ok.1 h
    obtain ⟨-, -, hcontent, -⟩ :=
      (Plan.ofChanges_eq_ok blind_rules (assigns_assignContent s.collection)).1 hp
    have hcontents : Keyed.LastStay content (Keyed.ofPairs content) := Keyed.lastStay_ofPairs
    have hlength := hcontents.length_eq_iff
    rw [← hcontent.length_eq] at hlength
    refine ⟨content, hcontent, ?_⟩
    rw [membersOf_replacement, List.length_map]
    exact ⟨hcontents.map Function.injective_id Value.toJson, hlength⟩

/-- An update that sets, adds and subtracts, each at a field of its own. -/
def restock : Search := ⟨⟨"shop", "items"⟩,
  [.set ⟨.plain "label", .prepared, none⟩,
    .condition ⟨.equals, ⟨.plain "id", none⟩, .prepared, none⟩,
    .set ⟨.plain "stock", .literal (.int 5), some .add⟩,
    .set ⟨.plain "price", .prepared, some .subtract⟩]⟩

/-- Each of its three assignments stays. -/
theorem last_assignments_of_restock_stay :
    ∃ c, render (.update restock) [.text "new", .int 7, .int 2] = .ok c ∧
      (heldOperands (c.member "update")).length = 3 := by
  have hc : render (.update restock) [.text "new", .int 7, .int 2] = .ok _ := rfl
  refine ⟨_, hc, ?_⟩
  obtain ⟨changes, hchanges, -, hlength⟩ := last_assignments_stay.1 hc
  refine hlength.2 ?_
  obtain ⟨x, xs, ⟨-, -, -, hx⟩, hxs, rfl⟩ := List.forall₂_cons_left_iff.1 hchanges
  obtain ⟨y, ys, ⟨-, -, -, hy⟩, hys, rfl⟩ := List.forall₂_cons_left_iff.1 hxs
  obtain ⟨z, zs, ⟨-, -, -, hz⟩, hzs, rfl⟩ := List.forall₂_cons_left_iff.1 hys
  cases hzs
  have hlabel : x.path = "label" := hx
  have hstock : y.path = "stock" := hy
  have hprice : z.path = "price" := hz
  simp [hlabel, hstock, hprice]

/-- An update with a sum and a difference of one field. -/
def spent : Search := ⟨⟨"shop", "users"⟩,
  [.set ⟨.plain "credits", .literal (.int 5), some .add⟩,
    .set ⟨.plain "credits", .literal (.int 2), some .subtract⟩]⟩

/-- The difference stands in the place of the sum. -/
theorem last_assignments_of_spent_lose_sum :
    ∃ c changes, render (.update spent) [] = .ok c ∧
      List.Forall₂ (Requests spent.collection) (spent.assigned []) changes ∧
      ((("$inc", "credits"), Json.int 5) ∈ changes.map FieldChange.member) ∧
      heldOperands (c.member "update") = [(("$inc", "credits"), Json.int (-2))] ∧
      (heldOperands (c.member "update")).length ≠ (spent.assigned []).length := by
  refine ⟨.update "users" (.conjunction []) [(.inc, [("credits", .int (-2))])],
    [⟨.inc, "credits", .int 5⟩, ⟨.inc, "credits", .int (-2)⟩], rfl, ?_, List.mem_cons_self, rfl,
    by decide⟩
  exact .cons ⟨_, rfl, .add _, rfl⟩ (.cons ⟨_, rfl, .subtractInt (by decide), rfl⟩ .nil)

end Document

end QueryLayer
