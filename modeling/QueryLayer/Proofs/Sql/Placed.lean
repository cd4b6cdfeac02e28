import QueryLayer.Proofs.Sql.Filter
import QueryLayer.Proofs.Sql.Place
import Mathlib.Algebra.Group.Nat.Defs

/-!
# The places of a search

Fragments are read one behind the other, each with the tokens that stand before it
(`Fragment.Reads`). The values among the tokens of a fragment are those it binds, so
what binds none has no places. Each test of a filter begins behind `WHERE`, a
connector, a negation or a bracket, wherever it stands, and this is all that its
placeholders look back at (`reads_test`, `reads_operands`).
-/

namespace QueryLayer

namespace Sql

open Fragment SearchCondition

variable {b ts us : List Token} {xs ys : List (Place × Value)} {f g : Fragment}

/-! ## Tokens one behind the other -/

/-- **Tokens behind others are read with these before them.** -/
theorem placesFrom_append (b ts us : List Token) :
    placesFrom b (ts ++ us) = (placesFrom b ts).bind fun xs =>
      (placesFrom (ts.reverse ++ b) us).map (xs ++ ·) := by
  induction ts generalizing b with
  | nil => simp [placesFrom]
  | cons t ts ih =>
    rw [List.reverse_cons, List.append_assoc, List.singleton_append, List.cons_append]
    cases t with
    | value v =>
      rw [placesFrom, placesFrom, ih]
      cases Place.of b with
      | none => rfl
      | some p =>
        cases placesFrom (.value v :: b) ts with
        | none => rfl
        | some xs =>
          cases placesFrom (ts.reverse ++ .value v :: b) us <;> rfl
    | word w | mark c | name n | literal content => exact ih _

/-- The values are read in order. -/
theorem map_snd_placesFrom (h : placesFrom b ts = some xs) :
    xs.map Prod.snd = ts.filterMap Token.value? := by
  induction ts generalizing b xs with
  | nil =>
    cases h
    rfl
  | cons t ts ih =>
    cases t with
    | value v =>
      obtain ⟨p, -, h⟩ := Option.bind_eq_some_iff.1 h
      obtain ⟨rest, hrest, rfl⟩ := Option.map_eq_some_iff.1 h
      rw [List.map_cons, ih hrest]
      rfl
    | word w | mark c | name n | literal content => exact ih h

theorem placesFrom_of_no_values (h : ts.filterMap Token.value? = []) :
    placesFrom b ts = some [] := by
  induction ts generalizing b with
  | nil => rfl
  | cons t ts ih =>
    cases t with
    | value v => simp [Token.value?] at h
    | word w | mark c | name n | literal content => exact ih h

/-- The tokens of words and marks are words and marks. -/
theorem token_of_mem_tokens_text {s : String} {t : Token} (ht : t ∈ (Piece.text s).tokens) :
    (∃ w, t = .word w) ∨ ∃ c, t = .mark c := by
  have hfrom : ∀ (cs w : List Char), t ∈ tokensFrom w (cs.map (Lexeme.plain · ())) →
      (∃ w, t = .word w) ∨ ∃ c, t = .mark c := by
    have hword : ∀ w : List Char, t ∈ Token.ofWord w → ∃ w, t = .word w := by
      intro w ht
      unfold Token.ofWord at ht
      split at ht
      · cases ht
      · exact ⟨_, List.mem_singleton.1 ht⟩
    intro cs
    induction cs with
    | nil => exact fun w ht => .inl (hword w ht)
    | cons c cs ih =>
      intro w ht
      rw [List.map_cons, tokensFrom] at ht
      split at ht
      · exact ih _ ht
      · rcases List.mem_append.1 ht with ht | ht
        · rcases List.mem_append.1 ht with ht | ht
          · exact .inl (hword w ht)
          · unfold Token.ofMark at ht
            split at ht
            · cases ht
            · exact .inr ⟨c, List.mem_singleton.1 ht⟩
        · exact ih [] ht
  exact hfrom s.toList [] ht

namespace Fragment

/-- The values among the tokens are those that are bound. -/
theorem filterMap_value?_tokens (f : Fragment) : (tokens f).filterMap Token.value? = bound f := by
  induction f with
  | nil => rfl
  | cons p f ih =>
    rw [tokens_cons, List.filterMap_append, ih]
    cases p with
    | text s =>
      have hnone : (Piece.text s).tokens.filterMap Token.value? = [] := by
        refine List.filterMap_eq_nil_iff.2 fun t ht => ?_
        obtain ⟨w, rfl⟩ | ⟨c, rfl⟩ := token_of_mem_tokens_text ht <;> rfl
      rw [hnone]
      rfl
    | name n =>
      rw [tokens_name]
      rfl
    | literal content | slot s v => rfl

/-! ## Fragments one behind the other -/

/-- Behind the tokens `b`, given in reverse, the placeholders of the fragment have
these places and values. -/
def Reads (b : List Token) (f : Fragment) (xs : List (Place × Value)) : Prop :=
  placesFrom b (tokens f) = some xs

/-- What binds no value has no places. -/
theorem Reads.silent (hf : slots f = []) : Reads b f [] := by
  refine placesFrom_of_no_values ?_
  rw [filterMap_value?_tokens, bound_eq_slots, hf]
  rfl

theorem Reads.append (hf : Reads b f xs) (hg : Reads ((tokens f).reverse ++ b) g ys) :
    Reads b (f ++ g) (xs ++ ys) := by
  rw [Reads, tokens_append, placesFrom_append, hf, Option.bind_some, hg, Option.map_some]

/-- Behind a fragment that binds no value. -/
theorem Reads.behind (hf : slots f = []) (hg : Reads ((tokens f).reverse ++ b) g ys) :
    Reads b (f ++ g) ys :=
  (Reads.silent hf).append hg

/-- Before a fragment that binds no value. -/
theorem Reads.before (hf : Reads b f xs) (hg : slots g = []) : Reads b (f ++ g) xs := by
  have h := hf.append (Reads.silent hg)
  rwa [List.append_nil] at h

theorem Reads.text {s : String} (hf : Reads ((Piece.text s).tokens.reverse ++ b) f xs) :
    Reads b (.text s :: f) xs := by
  have htokens : tokens [.text s] = (Piece.text s).tokens := by simp
  refine Reads.behind (f := [.text s]) rfl ?_
  rwa [htokens]

/-- A placeholder. -/
theorem Reads.slot {p : Place} (hp : Place.of b = some p) (s : Slot) (v : Value) :
    Reads b [.slot s v] [(p, v)] := by
  change placesFrom b [.value v] = _
  rw [placesFrom, hp]
  rfl

/-- The values are those that are bound. -/
theorem Reads.map_snd (h : Reads b f xs) : xs.map Prod.snd = bound f := by
  rw [map_snd_placesFrom h, filterMap_value?_tokens]

/-- **Joined fragments**, where each can be read behind the mark as behind the
first tokens. -/
theorem Reads.join {mark : String} {P : List Token → Prop}
    (hmark : ∀ b, P ((Piece.text mark).tokens.reverse ++ b)) {fs : List Fragment}
    {xss : List (List (Place × Value))}
    (h : List.Forall₂ (fun f xs => ∀ b, P b → Reads b f xs) fs xss) (hb : P b) :
    Reads b (Fragment.join mark fs) xss.flatten := by
  induction h generalizing b with
  | nil => rfl
  | cons hf hfs ih =>
    rw [List.flatten_cons]
    cases hfs with
    | nil =>
      rw [join_singleton]
      simpa using hf b hb
    | cons hg hgs =>
      rw [join_cons_cons]
      exact (hf b hb).append (Reads.text (ih (hmark _)))

/-- Words at the end are not looked back at. -/
theorem Reads.of_append_text {s : String} (h : Reads b (f ++ [.text s]) xs) : Reads b f xs := by
  have hsilent : placesFrom ((tokens f).reverse ++ b) (tokens [.text s]) = some [] :=
    Reads.silent rfl
  rw [Reads, tokens_append, placesFrom_append, hsilent] at h
  cases hf : placesFrom b (tokens f) with
  | none => simp [hf] at h
  | some ys =>
    obtain rfl : ys = xs := by simpa [hf] using h
    exact hf

/-- The blanks at the end play no part. -/
theorem Reads.trimEnd {q : Text.Quotes} (hq : Known q) (h : Reads b f xs) :
    Reads b (trimEnd q f) xs := by
  have hdrop : ∀ r : Fragment, Reads b r.reverse xs → Reads b (dropBlank q r).reverse xs := by
    intro r
    induction r with
    | nil => exact id
    | cons p r ih =>
      intro h
      by_cases hp : ∀ s, p ≠ .text s
      · rwa [dropBlank_cons hq hp]
      · obtain ⟨s, rfl⟩ : ∃ s, p = .text s := by simpa using hp
        have hrest : Reads b r.reverse xs := by
          rw [List.reverse_cons] at h
          exact h.of_append_text
        rw [dropBlank]
        split
        · exact ih hrest
        · split
          · exact h
          · rw [List.reverse_cons]
            exact hrest.before rfl
  exact hdrop f.reverse (by rwa [List.reverse_reverse])

end Fragment

open Fragment

/-! ## Lists of values -/

/-- **The values of a list** of so many, from the one with the index `k` on. -/
theorem reads_values {p : ℕ → Place} {rest : List Token} {n : ℕ}
    (hp : ∀ i b, i < n → Place.index b = some (i, rest) → Place.of b = some (p i))
    (vs : List Value) :
    ∀ (s : ℕ → Slot) (k : ℕ) (b : List Token), k + vs.length ≤ n →
      Place.index b = some (k, rest) →
      Reads b (Fragment.join "," (vs.mapIdx fun i v => [.slot (s i) v]))
        (vs.mapIdx fun i v => (p (k + i), v)) := by
  induction vs with
  | nil => exact fun _ _ _ _ _ => rfl
  | cons v vs ih =>
    intro s k b hk hb
    rw [List.length_cons] at hk
    have hslot : Reads b [.slot (s 0) v] [(p k, v)] := Reads.slot (hp k b (by omega) hb) _ v
    rw [List.mapIdx_cons, List.mapIdx_cons]
    cases vs with
    | nil =>
      rw [List.mapIdx_nil, List.mapIdx_nil, join_singleton]
      exact hslot
    | cons u us =>
      -- the next value has a comma and this one before it
      have hnext : Place.index (.mark ',' :: .value v :: b) = some (k + 1, rest) := by
        rw [Place.index, hb]
        rfl
      have hrest := ih (fun i => s (i + 1)) (k + 1) _ (by omega) hnext
      have hplaces : ((u :: us).mapIdx fun i v => (p (k + (i + 1)), v)) =
          (u :: us).mapIdx fun i v => (p (k + 1 + i), v) := by
        congr 1
        funext i v
        rw [Nat.add_assoc, Nat.add_comm 1 i]
      rw [hplaces]
      rw [List.mapIdx_cons] at hrest ⊢
      rw [join_cons_cons]
      exact hslot.append (Reads.text hrest)

/-! ## Tests -/

/-- The places of the values of a test. -/
def testPlaces (t : Test) : List (Place × Value) :=
  let subject := (t.target.aggregation, t.target.field.parts)
  match t.criterion with
  | .equals v => [(.operand .equals subject, v)]
  | .like v => [(.operand .like subject, v)]
  | .lower v => [(.operand .lower subject, v)]
  | .higher v => [(.operand .higher subject, v)]
  | .null => []
  | .oneOf vs => vs.mapIdx fun i v => (.item subject i, v)
  | .between lower upper => [(.lowerBound subject, lower), (.upperBound subject, upper)]

section

variable (hb : Place.opensCondition b = true)

include hb

/-- A test may stand behind a negation as well. -/
theorem opensCondition_negation (negated : Bool) :
    Place.opensCondition ((tokens (negation negated)).reverse ++ b) = true := by
  cases negated with
  | false => exact hb
  | true => rfl

/-- A comparison with one value. -/
theorem reads_comparison (negated : Bool) (t : Target) (symbol : String) (token : Token)
    (hsymbol : (Piece.text symbol).tokens = [token]) {p : Place}
    (hp : ∀ b, Place.opensCondition b = true →
      Place.of (token :: ((tokens (target t)).reverse ++ b)) = some p) (v : Value) :
    Reads b (comparison negated t symbol v) [(p, v)] := by
  rw [comparison, List.append_assoc]
  refine Reads.behind (slots_negation negated) (Reads.behind (slots_target t) (Reads.text ?_))
  rw [hsymbol]
  exact Reads.slot (hp _ (opensCondition_negation hb negated)) _ v

/-- **The places of a test**, negated or not. -/
theorem reads_test (negated : Bool) (t : Test) : Reads b (test negated t) (testPlaces t) := by
  obtain ⟨t, criterion⟩ := t
  have hcondition := fun b hb (k : Subject → Place) =>
    Place.condition_reverse_target (b := b) hb k t
  cases criterion with
  | equals v =>
    refine reads_comparison hb negated t "=" (.mark '=') rfl (fun b hb => ?_) v
    change (Place.assigned none _).orElse _ = _
    rw [Place.assigned_reverse_target hb]
    exact hcondition b hb _
  | like v =>
    exact reads_comparison hb negated t " LIKE " (.word "LIKE") rfl
      (fun b hb => hcondition b hb (.operand .like)) v
  | lower v =>
    exact reads_comparison hb negated t "<" (.mark '<') rfl
      (fun b hb => hcondition b hb (.operand .lower)) v
  | higher v =>
    exact reads_comparison hb negated t ">" (.mark '>') rfl
      (fun b hb => hcondition b hb (.operand .higher)) v
  | null => exact Reads.silent (by simp [test])
  | oneOf vs =>
    have hin : (Piece.text " IN (").tokens.reverse = [.mark '(', .word "IN"] := rfl
    simp only [test, List.append_assoc, List.singleton_append]
    refine Reads.behind (slots_negation negated) (Reads.behind (slots_target t) (Reads.text ?_))
    refine Reads.before ?_ rfl
    rw [hin]
    have hb' := opensCondition_negation hb negated
    have hplace : ∀ i b', i < vs.length → Place.index b' = some (i, .word "IN" ::
        ((tokens (target t)).reverse ++ ((tokens (negation negated)).reverse ++ b))) →
          Place.of b' = some (.item (t.aggregation, t.field.parts) i) := by
      intro i b' _ hi
      rw [Place.of_eq_listed hi, Place.listed, hi]
      exact hcondition _ hb' (Place.item · i)
    have hvalues := reads_values hplace vs Slot.item 0
    simpa [testPlaces, itemSlots] using hvalues _ (by simp) rfl
  | between lower upper =>
    have hb' := opensCondition_negation hb negated
    have hbetween : (Piece.text " BETWEEN ").tokens.reverse = [.word "BETWEEN"] := rfl
    simp only [test, List.append_assoc]
    refine Reads.behind (slots_negation negated) (Reads.behind (slots_target t) (Reads.text ?_))
    rw [hbetween]
    have hlower : Place.of (.word "BETWEEN" :: ((tokens (target t)).reverse ++
        ((tokens (negation negated)).reverse ++ b))) =
          some (.lowerBound (t.aggregation, t.field.parts)) := hcondition _ hb' .lowerBound
    have hupper : Place.of (.word "AND" :: .value lower :: .word "BETWEEN" ::
        ((tokens (target t)).reverse ++ ((tokens (negation negated)).reverse ++ b))) =
          some (.upperBound (t.aggregation, t.field.parts)) := hcondition _ hb' .upperBound
    exact (Reads.slot hlower _ _).append (Reads.text (Reads.slot hupper _ _))

end

/-! ## Predicates -/

/-- The fragment has these places wherever a condition begins. -/
def ReadsCondition (f : Fragment) (xs : List (Place × Value)) : Prop :=
  ∀ b, Place.opensCondition b = true → Reads b f xs

/-- The places of the tests of a formula. -/
def formulaPlaces (f : Formula Test) : List (Place × Value) := f.leaves.flatMap testPlaces

/-- The places of the tests of predicates. -/
def predicatePlaces (ps : List Predicate) : List (Place × Value) :=
  (Predicate.tests ps).flatMap testPlaces

theorem flatten_formulaPlaces (fs : List (Formula Test)) :
    (fs.map formulaPlaces).flatten = (Formula.leavesAll fs).flatMap testPlaces := by
  induction fs with
  | nil => rfl
  | cons f fs ih =>
    rw [List.map_cons, List.flatten_cons, ih, Formula.leavesAll, List.flatMap_append, formulaPlaces]

/-- Operands with a connector between each two. -/
theorem reads_connected (kind : OperationKind) {fs : List Fragment}
    {xss : List (List (Place × Value))} (h : List.Forall₂ ReadsCondition fs xss)
    (hb : Place.opensCondition b = true) :
    Reads b (Fragment.join (" " ++ kind.keyword ++ " ") fs) xss.flatten := by
  refine Reads.join (fun b => ?_) h hb
  rw [tokens_connector]
  cases kind <;> rfl

theorem reads_bracket (negated : Bool) (kind : OperationKind) {fs : List Fragment}
    {xss : List (List (Place × Value))} (h : List.Forall₂ ReadsCondition fs xss) :
    ReadsCondition (bracket negated kind fs) xss.flatten := by
  intro b _
  simp only [bracket, List.append_assoc, List.singleton_append]
  refine Reads.behind (slots_negation negated) (Reads.text (Reads.before ?_ rfl))
  exact reads_connected kind h rfl

mutual

/-- **The places of the operands of a predicate**: brackets and negations keep the
order of the tests. -/
theorem reads_operands : ∀ (negated : Bool) (p : Predicate),
    List.Forall₂ ReadsCondition (operands negated p) [formulaPlaces p.formula]
  | negated, .test t => by
    refine .cons (fun b hb => ?_) .nil
    simpa [Predicate.formula, formulaPlaces, Formula.leaves] using reads_test hb negated t
  | negated, .not p => by
    rw [operands]
    exact reads_operands (!negated) p
  | negated, .all ps => by
    have hall := reads_bracket negated .and (reads_operandsAll ps)
    rw [flatten_formulaPlaces] at hall
    rw [operands]
    exact .cons hall .nil
  | negated, .any ps => by
    have hany := reads_bracket negated .or (reads_operandsAll ps)
    rw [flatten_formulaPlaces] at hany
    rw [operands]
    exact .cons hany .nil

/-- The same for several predicates. -/
theorem reads_operandsAll : ∀ ps : List Predicate,
    List.Forall₂ ReadsCondition (operandsAll false ps) ((Predicate.formulas ps).map formulaPlaces)
  | [] => .nil
  | p :: ps => by
    rw [operandsAll]
    exact List.rel_append (reads_operands false p) (reads_operandsAll ps)

end

/-- **The places of a filter** are those of its tests, in order. -/
theorem reads_filter (b : List Token) (ps : List Predicate) :
    Reads b (filter ps) (predicatePlaces ps) := by
  have hoperands := reads_operandsAll ps
  have hplaces : ((Predicate.formulas ps).map formulaPlaces).flatten = predicatePlaces ps :=
    flatten_formulaPlaces _
  unfold filter
  split
  · next hnil =>
    rw [hnil, List.forall₂_nil_left_iff] at hoperands
    rw [← hplaces, hoperands]
    rfl
  · next os _ =>
    rw [← hplaces]
    exact Reads.text (reads_connected .and hoperands rfl)

/-! ## The clauses of a search -/

/-- A number of rows as an integer, the largest one where it is past all integers. -/
def rowNumber (n : UInt64) : Value :=
  .int (if n.toNat < 2 ^ 63 then Int64.ofNat n.toNat else Int64.maxValue)

theorem rowCount_eq_rowNumber (n : UInt64) : rowCount n = rowNumber n := by
  have hmax : Int64.maxValue.toInt = 2 ^ 63 - 1 := by decide
  rw [rowCount, rowNumber, hmax]
  congr 1
  split
  · next h =>
    rw [Int.min_eq_left (by omega)]
    rfl
  · next h =>
    rw [Int.min_eq_right (by omega)]
    decide

/-- The places of a window, in the order in which the dialect writes them. -/
def windowPlaces (d : Dialect) (w : Window) : List (Place × Value) :=
  match d.limitStyle with
  | .limitOffset => [(.limit, rowNumber w.limit), (.offset, rowNumber w.offset)]
  | .offsetFetch => [(.offset, rowNumber w.offset), (.limit, rowNumber w.limit)]

theorem reads_window (b : List Token) (d : Dialect) (w : Option Window) :
    Reads b (window d w) (w.toList.flatMap (windowPlaces d)) := by
  cases w with
  | none => rfl
  | some w =>
    simp only [window, windowPlaces, rowCount_eq_rowNumber, Option.toList_some,
      List.flatMap_singleton]
    cases d.limitStyle with
    | limitOffset => rfl
    | offsetFetch => rfl

/-- **The places of the clauses of a plan**: those of its tests and then those of its
window. -/
theorem reads_clauses (b : List Token) (d : Dialect) (p : Plan) :
    Reads b (clauses d p)
      (predicatePlaces p.predicates ++ p.window.toList.flatMap (windowPlaces d)) := by
  unfold clauses
  refine Reads.append (Reads.before (Reads.before ?_ (slots_groupBy _)) (slots_orderBy d _))
    (reads_window _ d p.window)
  exact Reads.behind (slots_joins d _) (reads_filter _ _)

end Sql

end QueryLayer
