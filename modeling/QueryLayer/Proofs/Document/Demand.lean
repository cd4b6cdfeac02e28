import QueryLayer.Proofs.Document.Match
import QueryLayer.Proofs.Pattern.Regex
import QueryLayer.Proofs.Walk.Still

/-!
# What a filter asks of a field

A member of a filter that names a field holds an object, and the names of its
operators say what is asked of the value there (`readDemand`): to equal a value,
to lie before, behind or between values, to be one of several, or to be a text
that a regular expression takes. The object that a test makes is read back as
the test with the JSON of its values, at the path of its field
(`FieldTest.asks_ofTest`).
-/

namespace QueryLayer

/-! ## Values -/

/-- The JSON spells the value. A float that is not finite is spelled as null, and
bytes as a list of integers. -/
inductive Value.Spelled : Value → Json → Prop
  | null : Spelled .null .null
  | bool (b : Bool) : Spelled (.bool b) (.bool b)
  | int (n : Int64) : Spelled (.int n) (.int n.toInt)
  | float {x : Float} : (x.isNaN || x.isInf) = false → Spelled (.float x) (.float x)
  | notFinite {x : Float} : (x.isNaN || x.isInf) = true → Spelled (.float x) .null
  | text (s : String) : Spelled (.text s) (.string s)
  | list {vs : List Value} {js : List Json} :
      List.Forall₂ Spelled vs js → Spelled (.list vs) (.array js)
  | blob (bytes : List UInt8) : Spelled (.blob bytes) (.array (bytes.map fun b => .int b.toNat))

namespace Value

mutual

theorem spelled_toJson : ∀ v : Value, v.Spelled v.toJson
  | .null => .null
  | .bool b => .bool b
  | .int n => .int n
  | .float x => by
    rw [toJson]
    split
    · next h => exact .notFinite h
    · next h => exact .float (by simpa using h)
  | .text s => .text s
  | .list vs => by
    rw [toJson]
    exact .list (spelled_toJsonAll vs)
  | .blob bytes => .blob bytes

/-- The same for several values. -/
theorem spelled_toJsonAll : ∀ vs : List Value, List.Forall₂ Spelled vs (toJsonAll vs)
  | [] => .nil
  | v :: vs => .cons (spelled_toJson v) (spelled_toJsonAll vs)

end

end Value

/-! ## Patterns -/

/-- The node for a token of a pattern that is written without sets. What breaks off
has none. -/
def Like.Token.node? : Like.Token → Option Regex.Node
  | .any => some (.many .dot)
  | .one => some (.once .dot)
  | .literal c => some (.once (.char c))
  | .set _ => none
  | .broken => none

namespace Document

/-- The items of a pattern are what LIKE reads in it, up to where it breaks off. -/
theorem map_node_likeItems (pattern : List Char) : (likeItems pattern).map LikeItem.node =
    (Like.tokens .standard pattern).filterMap Like.Token.node? := by
  rw [Like.tokens]
  fun_induction likeItems pattern with
  | case1 | case2 => rfl
  | case3 c cs ih | case4 cs ih | case5 cs ih =>
    rw [List.map_cons, ih]
    rfl
  | case6 c cs hlast hescape hany hone ih =>
    have hplain : ¬ Pattern.written c = true := by
      rw [Pattern.written_iff]
      rintro (rfl | rfl | rfl)
      · exact hany rfl
      · exact hone rfl
      · cases cs with
        | nil => exact hlast rfl rfl
        | cons d cs => exact hescape d cs rfl rfl
    rw [Pattern.tokensFrom_standard_cons hplain, List.map_cons, ih]
    rfl

/-! ## Reading an object -/

/-- What is asked of the value of a field. -/
inductive Demand where
  | equal (value : Json)
  | lower (bound : Json)
  | higher (bound : Json)
  | oneOf (items : List Json)
  | between (lower upper : Json)
  /-- To be a text that the regular expression takes. -/
  | matching (nodes : List Regex.Node)

/-- What one operator asks. -/
def readOperator : String → Json → Option Demand
  | "$eq", operand => some (.equal operand)
  | "$lt", operand => some (.lower operand)
  | "$gt", operand => some (.higher operand)
  | "$in", .array items => some (.oneOf items)
  | "$regex", .string text => (Regex.read text.toList).map .matching
  | _, _ => none

/-- What an object of operators asks. -/
def readDemand : Json → Option Demand
  | .object [(operator, operand)] => readOperator operator operand
  | .object [("$gte", lower), ("$lte", upper)] => some (.between lower upper)
  | _ => none

/-- The demand is the criterion with the JSON of its values. A test for null is one
for the value, and a pattern is one node for each of its tokens, from the start of
the text to its end. -/
inductive Demanded : Criterion → Demand → Prop
  | equals {v : Value} {j : Json} : v.Spelled j → Demanded (.equals v) (.equal j)
  | lower {v : Value} {j : Json} : v.Spelled j → Demanded (.lower v) (.lower j)
  | higher {v : Value} {j : Json} : v.Spelled j → Demanded (.higher v) (.higher j)
  | null : Demanded .null (.equal .null)
  | oneOf {vs : List Value} {js : List Json} :
      List.Forall₂ Value.Spelled vs js → Demanded (.oneOf vs) (.oneOf js)
  | between {l u : Value} {j k : Json} :
      l.Spelled j → u.Spelled k → Demanded (.between l u) (.between j k)
  | like (pattern : String) : Demanded (.like (.text pattern)) (.matching
      (.start :: ((Like.tokens .standard pattern.toList).filterMap Like.Token.node? ++ [.final])))

/-- A pattern that is compared with is a text. -/
def PatternIsText (k : Criterion) : Prop := ∀ v, k = .like v → ∃ text, v = .text text

/-- **The object of a criterion asks for the criterion.** -/
theorem readDemand_criterionJson {k : Criterion} (h : PatternIsText k) :
    ∃ demand, readDemand (criterionJson k) = some demand ∧ Demanded k demand := by
  cases k with
  | equals v => exact ⟨_, rfl, .equals v.spelled_toJson⟩
  | lower v => exact ⟨_, rfl, .lower v.spelled_toJson⟩
  | higher v => exact ⟨_, rfl, .higher v.spelled_toJson⟩
  | null => exact ⟨_, rfl, .null⟩
  | oneOf vs =>
    have hvs : List.Forall₂ Value.Spelled vs (vs.map Value.toJson) :=
      List.forall₂_map_right_iff.2 (List.forall₂_same.2 fun v _ => v.spelled_toJson)
    exact ⟨_, rfl, .oneOf hvs⟩
  | between l u => exact ⟨_, rfl, .between l.spelled_toJson u.spelled_toJson⟩
  | like v =>
    obtain ⟨text, rfl⟩ := h v rfl
    refine ⟨_, ?_, .like text⟩
    rw [← map_node_likeItems, criterionJson, readDemand, regexOf, readOperator,
      String.toList_ofList, read_likeRegex]
    rfl

/-! ## Tests -/

/-- Where the documents of a collection hold a field: under its own name, and if it
belongs to another collection, within what has the name of that one. -/
inductive HeldAt (base : CollectionRef) : FieldRef → String → Prop
  | own {f : FieldRef} : (∀ c, f.collection = some c → c = base.name) → HeldAt base f f.field
  | joined {f : FieldRef} {c : String} : f.collection = some c → c ≠ base.name →
      HeldAt base f (c ++ "." ++ f.field)

theorem heldAt_path (base : CollectionRef) (f : FieldRef) : HeldAt base f (path base f) := by
  cases hf : f.collection with
  | none =>
    simp only [path, hf]
    exact .own (by simp [hf])
  | some c =>
    by_cases hc : c = base.name
    · simp only [path, hf, if_pos hc]
      exact .own (by simp [hf, hc])
    · simp only [path, hf, if_neg hc]
      exact .joined hf hc

/-- A field is held at one path. -/
theorem heldAt_iff {base : CollectionRef} {f : FieldRef} {p : String} :
    HeldAt base f p ↔ p = path base f := by
  constructor
  · rintro (h | ⟨hf, hc⟩)
    · cases hf : f.collection with
      | none => simp only [path, hf]
      | some c => simp only [path, hf, if_pos (h c hf)]
    · simp only [path, hf, if_neg hc]
  · rintro rfl
    exact heldAt_path base f

/-- A member of a filter asks what the test does: of the value that the documents of
a collection hold for its field, and for its criterion. -/
structure FieldTest.Asks (base : CollectionRef) (t : Test) (f : FieldTest) : Prop where
  unaggregated : t.target.aggregation = none
  held : HeldAt base t.target.field f.path
  demanded : ∃ demand, readDemand f.criterion = some demand ∧ Demanded t.criterion demand

theorem FieldTest.asks_ofTest {base : CollectionRef} {t : Test}
    (haggregation : t.target.aggregation = none) (h : PatternIsText t.criterion) :
    Asks base t (.ofTest base t) :=
  ⟨haggregation, heldAt_path base t.target.field, readDemand_criterionJson h⟩

/-! ## What the store accepts -/

theorem condition_rules_eq_ok {c : Condition} :
    rules.condition c = .ok () ↔ c.target.aggregation = none := by
  cases h : c.target.aggregation <;> simp [rules, refuseIf, h]

theorem test_rules_eq_ok {t : Test} : rules.test t = .ok () ↔ PatternIsText t.criterion := by
  obtain ⟨target, k⟩ := t
  cases k with
  | like v => cases v <;> simp [rules, refuseIf, isTextlessPattern, PatternIsText]
  | equals _ | lower _ | higher _ | null | oneOf _ | between _ _ =>
    simp [rules, refuseIf, isTextlessPattern, PatternIsText]

/-- What the store accepts, its filters can ask. -/
theorem FieldTest.asks_of_admits {base : CollectionRef} {c : Condition} {t : Test}
    (h : rules.Admits c t) : Asks base t (.ofTest base t) := by
  obtain ⟨hcondition, hyields, htest⟩ := h
  refine asks_ofTest ?_ (test_rules_eq_ok.1 htest)
  rw [hyields.1]
  exact condition_rules_eq_ok.1 hcondition

end Document

end QueryLayer
