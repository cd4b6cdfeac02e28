import QueryLayer.Build.Call
import QueryLayer.Keyed
import Mathlib.Data.List.Induction
import Mathlib.Data.List.Pairwise
import Mathlib.Data.List.Nodup

/-!
# The columns that calls build

An insert is built by calls that name columns and give values in any order. Which
columns there are and what each of them holds is said here from the calls alone:
a column stands where its name came first, in the spelling it came in
(`firstSpellings`), and holds what each call gave it (`InsertCall.givenTo`). What
a call gives depends on the calls before it, so the induction goes on the calls
from the last one (`Build.runAll_into`), and one step is one equation for the lookup
by name (`Insert.modifyColumn_columnsOf`).
-/

namespace QueryLayer

open Text

/-! ## Names in the order in which they come -/

section Names

variable {names : List String} {n m : String}

/-- Each name once, in the spelling in which it comes first. -/
def firstSpellings : List String → List String
  | [] => []
  | n :: ns => n :: (firstSpellings ns).filter fun m => !sameName n m

/-- The name is among the names, in whatever spelling. -/
def hasName (names : List String) (n : String) : Bool := names.any (sameName · n)

@[simp] theorem hasName_nil : hasName [] n = false := rfl

@[simp] theorem hasName_cons : hasName (m :: names) n = (sameName m n || hasName names n) := rfl

theorem hasName_iff : hasName names n = true ↔ ∃ m ∈ names, sameName m n = true := List.any_eq_true

theorem hasName_append {names' : List String} :
    hasName (names ++ names') n = (hasName names n || hasName names' n) := List.any_append

theorem mem_of_mem_firstSpellings (h : n ∈ firstSpellings names) : n ∈ names := by
  induction names with
  | nil => simp [firstSpellings] at h
  | cons m ms ih =>
    rcases List.mem_cons.1 h with rfl | h
    · exact List.mem_cons_self
    · exact List.mem_cons_of_mem _ (ih (List.mem_filter.1 h).1)

/-- No name is lost. -/
theorem hasName_firstSpellings (names : List String) (n : String) :
    hasName (firstSpellings names) n = hasName names n := by
  rw [Bool.eq_iff_iff, hasName_iff, hasName_iff]
  constructor
  · rintro ⟨m, hm, hmn⟩
    exact ⟨m, mem_of_mem_firstSpellings hm, hmn⟩
  · rintro ⟨m, hm, hmn⟩
    induction names with
    | nil => simp at hm
    | cons k ks ih =>
      by_cases hkn : sameName k n = true
      · exact ⟨k, List.mem_cons_self, hkn⟩
      · have hm : m ∈ ks := by
          rcases List.mem_cons.1 hm with rfl | hm
          · exact absurd hmn hkn
          · exact hm
        obtain ⟨j, hj, hjn⟩ := ih hm
        -- it is no spelling of the first name, and so it is kept behind it
        have hkj : sameName k j = false := by
          rw [sameName_congr hjn]
          exact Bool.eq_false_iff.2 hkn
        exact ⟨j, List.mem_cons_of_mem _ (List.mem_filter.2 ⟨hj, by rw [hkj]; rfl⟩), hjn⟩

/-- No two of the names are the same. -/
theorem pairwise_firstSpellings (names : List String) :
    (firstSpellings names).Pairwise fun a b => sameName a b = false := by
  induction names with
  | nil => exact .nil
  | cons n ns ih =>
    refine .cons (fun m hm => ?_) (ih.sublist List.filter_sublist)
    simpa using (List.mem_filter.1 hm).2

theorem nodup_firstSpellings (names : List String) : (firstSpellings names).Nodup := by
  refine (pairwise_firstSpellings names).imp fun hab hne => ?_
  rw [hne, sameName_refl] at hab
  cases hab

/-- A name that comes last is added if it did not come before. -/
theorem firstSpellings_concat (names : List String) (n : String) :
    firstSpellings (names ++ [n]) =
      if hasName names n then firstSpellings names else firstSpellings names ++ [n] := by
  induction names with
  | nil => rfl
  | cons k ks ih =>
    rw [List.cons_append, firstSpellings, ih, hasName_cons]
    by_cases hk : sameName k n = true
    · have hfilter : [n].filter (fun m => !sameName k m) = [] := by simp [hk]
      rw [hk, Bool.true_or, if_pos rfl, firstSpellings]
      split
      · rfl
      · rw [List.filter_append, hfilter, List.append_nil]
    · rw [Bool.not_eq_true] at hk
      rw [hk, Bool.false_or, firstSpellings]
      split
      · rfl
      · rw [List.filter_append, List.cons_append]
        simp [hk]

end Names

/-- Names that differ, with a value for each: a name has the value in its place. -/
theorem Keyed.get?_zip {κ α : Type} [DecidableEq κ] {keys : List κ} {values : List α} {i : ℕ}
    {key : κ} {value : α} (hkeys : keys.Nodup) (hlength : keys.length = values.length)
    (hkey : keys[i]? = some key) (hvalue : values[i]? = some value) :
    Keyed.get? key (keys.zip values) = some value := by
  have hnodup : ((keys.zip values).map Prod.fst).Nodup := by
    rwa [List.map_fst_zip (by omega)]
  have hpair : (keys.zip values)[i]? = some (key, value) :=
    List.getElem?_zip_eq_some.2 ⟨hkey, hvalue⟩
  exact (Keyed.get?_eq_some_iff hnodup).2 (List.mem_of_getElem? hpair)

/-! ## Columns as a function of their names -/

namespace Insert

variable {names : List String} {g : String → List Operand} {n : String} {vs : List Operand}

/-- Columns of these names that hold what `g` says. -/
def columnsOf (names : List String) (g : String → List Operand) : List InsertColumn :=
  names.map fun m => ⟨m, g m⟩

theorem columnsOf_concat (names : List String) (n : String) (g : String → List Operand) :
    columnsOf (names ++ [n]) g = columnsOf names g ++ [⟨n, g n⟩] := by
  simp [columnsOf]

theorem modifyColumn_of_hasName {f : InsertColumn → InsertColumn} :
    ∀ {cs : List InsertColumn}, cs.Pairwise (fun c c' => sameName c.field c'.field = false) →
      hasName (cs.map (·.field)) n = true →
        modifyColumn n f cs = cs.map fun c => if sameName c.field n then f c else c
  | [], _, hn => by simp [hasName] at hn
  | c :: cs, hcs, hn => by
    obtain ⟨hc, hcs⟩ := List.pairwise_cons.1 hcs
    rw [modifyColumn, List.map_cons]
    by_cases h : sameName c.field n = true
    · -- the names behind it are others
      have hothers : ∀ c' ∈ cs, sameName c'.field n = false := by
        intro c' hc'
        rw [← sameName_congr h, sameName_comm]
        exact hc c' hc'
      have hkeep : cs.map (fun c => if sameName c.field n then f c else c) = cs := by
        refine (List.map_congr_left fun c' hc' => ?_).trans (List.map_id cs)
        simp [hothers c' hc']
      rw [if_pos h, if_pos h, hkeep]
    · rw [List.map_cons, hasName_cons, Bool.or_eq_true] at hn
      have hn := hn.resolve_left h
      rw [if_neg h, if_neg h, modifyColumn_of_hasName hcs hn]

theorem modifyColumn_of_not_hasName {f : InsertColumn → InsertColumn} :
    ∀ {cs : List InsertColumn}, hasName (cs.map (·.field)) n = false →
      modifyColumn n f cs = cs ++ [f ⟨n, []⟩]
  | [], _ => rfl
  | c :: cs, hn => by
    rw [List.map_cons, hasName_cons, Bool.or_eq_false_iff] at hn
    rw [modifyColumn, if_neg (by rw [hn.1]; exact Bool.false_ne_true),
      modifyColumn_of_not_hasName hn.2, List.cons_append]

/-- **A column of a name gets more values**, and it is added where there is none
yet. -/
theorem modifyColumn_columnsOf {f : InsertColumn → InsertColumn} {more : List Operand}
    (hf : ∀ c, f c = ⟨c.field, c.values ++ more⟩) (hg : hasName names n = false → g n = []) :
    modifyColumn n f (columnsOf (firstSpellings names) g) =
      columnsOf (firstSpellings (names ++ [n])) fun m => g m ++ if sameName m n then more else [] := by
  have hfields : (columnsOf (firstSpellings names) g).map (·.field) = firstSpellings names := by
    simp [columnsOf, Function.comp_def]
  have hpairwise : (columnsOf (firstSpellings names) g).Pairwise
      fun c c' => sameName c.field c'.field = false :=
    List.pairwise_map.2 (pairwise_firstSpellings names)
  have hkeep : ∀ m, (if sameName m n then f ⟨m, g m⟩ else ⟨m, g m⟩) =
      (⟨m, g m ++ if sameName m n then more else []⟩ : InsertColumn) := by
    intro m
    split <;> simp [hf]
  rw [firstSpellings_concat]
  by_cases hn : hasName names n = true
  · rw [modifyColumn_of_hasName hpairwise (by rw [hfields, hasName_firstSpellings, hn]), if_pos hn]
    simp [columnsOf, hkeep]
  · have hn' := Bool.eq_false_iff.2 hn
    have hothers : ∀ m ∈ firstSpellings names, sameName m n = false := by
      intro m hm
      rw [← hasName_firstSpellings, hasName, List.any_eq_false] at hn'
      exact Bool.eq_false_iff.2 (hn' m hm)
    rw [modifyColumn_of_not_hasName (by rw [hfields, hasName_firstSpellings, hn']), if_neg hn, hf]
    have hold : columnsOf (firstSpellings names) (fun m => g m ++ if sameName m n then more else []) =
        columnsOf (firstSpellings names) g :=
      List.map_congr_left fun m hm => by simp [hothers m hm]
    rw [columnsOf_concat, hold]
    simp [sameName_refl, hg hn']

/-- A value is given to the column of a name. -/
theorem set_columnsOf (c : CollectionRef) (v : Operand) (hg : hasName names n = false → g n = []) :
    Insert.set ⟨c, columnsOf (firstSpellings names) g⟩ n v =
      ⟨c, columnsOf (firstSpellings (names ++ [n])) fun m =>
        g m ++ if sameName m n then [v] else []⟩ := by
  have hcolumn : ∀ c, pushValue v c = ⟨c.field, c.values ++ [v]⟩ := fun _ => rfl
  rw [Insert.set, modifyColumn_columnsOf hcolumn hg]

/-- Names without values only bring columns. -/
theorem foldl_modifyColumn_columnsOf {names' : List String}
    (hg : ∀ m, hasName names m = false → g m = []) :
    names'.foldl (fun cs n => modifyColumn n id cs) (columnsOf (firstSpellings names) g) =
      columnsOf (firstSpellings (names ++ names')) g := by
  induction names' generalizing names with
  | nil => rw [List.append_nil, List.foldl_nil]
  | cons n ns ih =>
    have hstep : modifyColumn n id (columnsOf (firstSpellings names) g) =
        columnsOf (firstSpellings (names ++ [n])) fun m => g m ++ if sameName m n then [] else [] :=
      modifyColumn_columnsOf (by simp) (hg n)
    simp only [ite_self, List.append_nil] at hstep
    rw [List.foldl_cons, hstep, ih fun m hm => ?_, List.append_assoc, List.singleton_append]
    rw [hasName_append, Bool.or_eq_false_iff] at hm
    exact hg m hm.1

/-- A row gives every column the value in its place. -/
theorem zipWith_pushValue_columnsOf (hnames : names.Nodup) (hlength : vs.length = names.length) :
    List.zipWith (fun c v => pushValue v c) (columnsOf names g) vs =
      columnsOf names fun m => g m ++ (Keyed.get? m (names.zip vs)).toList := by
  refine List.ext_getElem (by simp [columnsOf, hlength]) fun i hi hi' => ?_
  have hname : i < names.length := by simpa [columnsOf] using hi'
  have hvalue : i < vs.length := by omega
  have hget : Keyed.get? names[i] (names.zip vs) = some vs[i] :=
    Keyed.get?_zip hnames hlength.symm (List.getElem?_eq_getElem hname) (List.getElem?_eq_getElem hvalue)
  simp [columnsOf, pushValue, hget]

end Insert

/-! ## What calls give to columns -/

namespace Build

namespace InsertCall

variable {names : List String} {name : String} {calls : List InsertCall}

/-- The names that a call mentions. -/
def mentions : InsertCall → List String
  | .set field _ => [field]
  | .setPrepared field => [field]
  | .fields names => names
  | .values _ => []

/-- What a call gives to a column, where these columns have been named before
it. A row is accepted if it has one value for each of them. -/
def gives (columns : List String) (name : String) : InsertCall → List Operand
  | .set field v => if sameName name field then [v] else []
  | .setPrepared field => if sameName name field then [.prepared] else []
  | .fields _ => []
  | .values vs =>
    if vs.length = columns.length then (Keyed.get? name (columns.zip vs)).toList else []

/-- What calls give to a column, behind calls that mentioned the names. -/
def givenTo (name : String) : List String → List InsertCall → List Operand
  | _, [] => []
  | names, call :: calls =>
    call.gives (firstSpellings names) name ++ givenTo name (names ++ call.mentions) calls

theorem givenTo_concat (call : InsertCall) : givenTo name names (calls ++ [call]) =
    givenTo name names calls ++
      call.gives (firstSpellings (names ++ calls.flatMap mentions)) name := by
  induction calls generalizing names with
  | nil => simp [givenTo]
  | cons c cs ih =>
    rw [List.cons_append, givenTo, ih, givenTo, List.flatMap_cons, List.append_assoc,
      List.append_assoc]

/-- Nothing is given to a column that is not mentioned. -/
theorem givenTo_of_not_hasName (h : hasName (names ++ calls.flatMap mentions) name = false) :
    givenTo name names calls = [] := by
  induction calls generalizing names with
  | nil => rfl
  | cons call calls ih =>
    rw [List.flatMap_cons, ← List.append_assoc] at h
    have hcall : hasName (names ++ call.mentions) name = false := by
      rw [hasName_append, Bool.or_eq_false_iff] at h
      exact h.1
    rw [hasName_append, Bool.or_eq_false_iff] at hcall
    obtain ⟨hnames, hmentions⟩ := hcall
    rw [givenTo, ih h, List.append_nil]
    cases call with
    | set field v | setPrepared field =>
      have hfield : sameName field name = false := by simpa [mentions] using hmentions
      simp [gives, sameName_comm name, hfield]
    | fields _ => rfl
    | values vs =>
      have hnone : Keyed.get? name ((firstSpellings names).zip vs) = none := by
        refine Keyed.get?_eq_none_iff.2 fun hmem => ?_
        have hname := List.mem_map.1 hmem
        obtain ⟨⟨m, v⟩, hpair, rfl⟩ := hname
        have hmem := mem_of_mem_firstSpellings (List.of_mem_zip hpair).1
        rw [hasName, List.any_eq_false] at hnames
        exact hnames m hmem (sameName_refl m)
      simp [gives, hnone]

end InsertCall

open QueryLayer.Insert InsertCall

variable {names : List String} {g : String → List Operand}

/-- **One call**, made or refused, adds the names it mentions and the values it
gives. -/
theorem attempt_columnsOf (c : CollectionRef) (call : InsertCall)
    (hg : ∀ m, hasName names m = false → g m = []) :
    (attempt call.apply ⟨c, columnsOf (firstSpellings names) g⟩).1 =
      ⟨c, columnsOf (firstSpellings (names ++ call.mentions))
        fun m => g m ++ call.gives (firstSpellings names) m⟩ := by
  cases call with
  | set field v => exact set_columnsOf c v (hg field)
  | setPrepared field => exact set_columnsOf c .prepared (hg field)
  | fields names' =>
    simp only [attempt, apply, Insert.fields, mentions, gives, List.append_nil]
    rw [foldl_modifyColumn_columnsOf hg]
  | values vs =>
    have hwidth : (columnsOf (firstSpellings names) g).length = (firstSpellings names).length := by
      simp [columnsOf]
    simp only [attempt, apply, Insert.values, mentions, gives, List.append_nil, hwidth]
    by_cases hlength : vs.length = (firstSpellings names).length
    · have hrow := zipWith_pushValue_columnsOf (g := g) (nodup_firstSpellings names) hlength
      simp [hlength, hrow]
    · simp [hlength]

/-- **The columns that calls build**: their names in the order in which they
came, each with what the calls gave to it. -/
theorem runAll_into (c : CollectionRef) (calls : List InsertCall) :
    runAll InsertCall.apply calls (Insert.into c) =
      ⟨c, columnsOf (firstSpellings (calls.flatMap mentions)) fun m => givenTo m [] calls⟩ := by
  induction calls using List.reverseRecOn with
  | nil => rfl
  | append_singleton calls call ih =>
    have hrun : runAll InsertCall.apply (calls ++ [call]) (Insert.into c) =
        (attempt call.apply (runAll InsertCall.apply calls (Insert.into c))).1 := by
      rw [runAll, List.foldl_append, List.foldl_cons, List.foldl_nil, ← runAll]
    have hnone : ∀ m, hasName (calls.flatMap mentions) m = false → givenTo m [] calls = [] :=
      fun m hm => givenTo_of_not_hasName (by rwa [List.nil_append])
    rw [hrun, ih, attempt_columnsOf c call hnone]
    simp [givenTo_concat]

end Build

end QueryLayer
