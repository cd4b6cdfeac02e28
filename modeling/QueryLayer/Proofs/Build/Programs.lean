import QueryLayer.Build.Call
import QueryLayer.Proofs.Language.Canonical
import QueryLayer.Proofs.Language.Misuse

/-!
# Programs of calls build well

A program may nest programs to any depth, and a call that is refused leaves the
query as it was and the program goes on. So what a program can reach is a
relation (`Program.Reaches`): any call may be left out, at any depth, and every
query that stands at some point of some run is among those reached
(`reaches_runAll`, `reaches_of_build`).

Calls that take an entry or a condition as it is can build anything. All others
keep a query well built, which is said once for a call (`SearchCall.keeps`) and
follows for programs. Then nothing that is reached is refused for misuse when
it is rendered (`Program.misuse_never_rendered`).
-/

namespace QueryLayer

namespace Entry

/-! ## Entries one after the other -/

variable {e : Entry} {es fs : List Entry}

mutual

/-- An entry contains a limit if it holds a window. -/
theorem containsLimit_eq_false_iff : ∀ {e : Entry}, e.containsLimit = false ↔ e.parts.windows = []
  | .operation _ es => by
    rw [containsLimit, parts]
    exact anyLimit_eq_false_iff
  | .limit _ => by simp [containsLimit, parts]
  | .condition _ | .join _ | .orderBy _ | .groupBy _ | .set _ => by
    simp [containsLimit, parts, Parts.none]

/-- The same for several entries. -/
theorem anyLimit_eq_false_iff : ∀ {es : List Entry}, anyLimit es = false ↔ (partsAll es).windows = []
  | [] => by simp [anyLimit, partsAll, Parts.none]
  | e :: es => by
    rw [anyLimit, partsAll, Bool.or_eq_false_iff, containsLimit_eq_false_iff,
      anyLimit_eq_false_iff, Parts.windows_append, List.append_eq_nil_iff]

end

/-- Well built entries follow on each other if only one side holds a window. -/
theorem wellBuilt_append (hroom : (partsAll es).windows = [] ∨ (partsAll fs).windows = []) :
    WellBuilt (es ++ fs) ↔ WellBuilt es ∧ WellBuilt fs := by
  have hwindows : (partsAll (es ++ fs)).windows = (partsAll es).windows ++ (partsAll fs).windows := by
    rw [partsAll_append, Parts.windows_append]
  constructor
  · intro h
    obtain ⟨hes, hfs⟩ := boundedAll_append.1 h.bounded
    have hlength := h.windows
    have hlimits := h.limits
    rw [hwindows] at hlength hlimits
    rw [List.length_append] at hlength
    exact ⟨⟨by omega, fun w hw => hlimits w (List.mem_append_left _ hw), hes,
        fun e he => h.flat e (List.mem_append_left _ he)⟩,
      ⟨by omega, fun w hw => hlimits w (List.mem_append_right _ hw), hfs,
        fun e he => h.flat e (List.mem_append_right _ he)⟩⟩
  · rintro ⟨hes, hfs⟩
    refine ⟨?_, fun w hw => ?_, boundedAll_append.2 ⟨hes.bounded, hfs.bounded⟩,
      fun e he => (List.mem_append.1 he).elim (hes.flat e) (hfs.flat e)⟩
    · rw [hwindows]
      rcases hroom with h | h <;> rw [h]
      · simpa using hfs.windows
      · simpa using hes.windows
    · rw [hwindows] at hw
      exact (List.mem_append.1 hw).elim (hes.limits w) (hfs.limits w)

/-- The entry brings no window and no assignment, and its ranges are bounded. -/
structure Harmless (e : Entry) : Prop where
  windows : e.parts.windows = []
  assignments : e.parts.assignments = []
  bounded : e.Bounded

theorem Harmless.wellBuilt (he : e.Harmless) : WellBuilt [e] where
  windows := by simp [partsAll, Parts.none, he.windows]
  limits := by simp [partsAll, Parts.none, he.windows]
  bounded := ⟨he.bounded, trivial⟩
  flat := flat_of_assignments (by simp [partsAll, Parts.none, he.assignments])

/-- A harmless entry may come and go. -/
theorem Harmless.wellBuilt_append_iff (he : e.Harmless) :
    WellBuilt (es ++ [e]) ↔ WellBuilt es :=
  (wellBuilt_append (.inr (by simp [partsAll, Parts.none, he.windows]))).trans
    (and_iff_left he.wellBuilt)

/-- An operator over well built entries without assignments is well built. -/
theorem WellBuilt.operation (kind : OperationKind) (h : WellBuilt es)
    (hset : (partsAll es).assignments = []) : WellBuilt [.operation kind es] := by
  have hparts : partsAll [.operation kind es] = partsAll es := by
    rw [partsAll, parts, partsAll, Parts.append_none]
  exact ⟨by rw [hparts]; exact h.windows, by rw [hparts]; exact h.limits, ⟨h.bounded, trivial⟩,
    flat_of_assignments (by rw [hparts]; exact hset)⟩

end Entry

/-! ## What a call keeps -/

namespace Search

open Entry

/-- The search `s'` is well built if `s` is, and assigns what `s` assigns. -/
structure Keeps (s s' : Search) : Prop where
  wellBuilt : WellBuilt s.entries → WellBuilt s'.entries
  assignments : (partsAll s'.entries).assignments = (partsAll s.entries).assignments

variable {s s' s'' : Search} {e : Entry}

namespace Keeps

theorem refl (s : Search) : s.Keeps s := ⟨id, rfl⟩

theorem trans (h : s.Keeps s') (h' : s'.Keeps s'') : s.Keeps s'' :=
  ⟨h'.wellBuilt ∘ h.wellBuilt, h'.assignments.trans h.assignments⟩

theorem push (h : WellBuilt s.entries → WellBuilt (s.entries ++ [e]))
    (hset : e.parts.assignments = []) : s.Keeps (s.push e) where
  wellBuilt := h
  assignments := by simp [Search.push, partsAll_append, partsAll, Parts.none, hset]

theorem harmless (he : e.Harmless) : s.Keeps (s.push e) :=
  push he.wellBuilt_append_iff.2 he.assignments

/-- Conditions are harmless, if they are no unbounded ranges. -/
theorem condition {kind : ConditionKind} (hkind : kind ≠ .between) (t : Target) (v : Operand) :
    s.Keeps (s.condition kind t v) :=
  harmless ⟨rfl, rfl, fun h => absurd h hkind⟩

theorem conditionNot {kind : ConditionKind} (hkind : kind ≠ .between) (t : Target) (v : Operand) :
    s.Keeps (s.conditionNot kind t v) :=
  harmless ⟨rfl, rfl, fun h => absurd h hkind, trivial⟩

/-- A window is taken where there is none, and it has rows. -/
theorem window {w : Window} (h : s.window w = .ok s') : s.Keeps s' := by
  rw [Search.window] at h
  split at h
  · cases h
  · next hlimit =>
    split at h
    · cases h
    · next hlimited =>
      cases h
      rw [isLimited, Bool.not_eq_true, ← anyLimit_eq_any, anyLimit_eq_false_iff] at hlimited
      refine push (fun hs => (wellBuilt_append (.inl hlimited)).2 ⟨hs, ?_⟩) rfl
      exact ⟨Nat.le_refl 1, by simpa [partsAll, parts, Parts.none] using hlimit, ⟨trivial, trivial⟩,
        fun e he => by rw [List.mem_singleton.1 he]; rfl⟩

/-- **An operator** is put over well built entries, of which only one side
holds a window. -/
theorem operation {kind : OperationKind} {fs : List Entry} (hfs : WellBuilt fs)
    (hset : (partsAll fs).assignments = []) (h : s.operation kind fs = .ok s') : s.Keeps s' := by
  rw [Search.operation] at h
  split at h
  · cases h
  · next hroom =>
    cases h
    rw [isLimited, Bool.and_eq_true, not_and_or, Bool.not_eq_true, Bool.not_eq_true,
      ← anyLimit_eq_any, ← anyLimit_eq_any, anyLimit_eq_false_iff, anyLimit_eq_false_iff] at hroom
    have hgroup : (partsAll [Entry.operation kind fs]).windows = (partsAll fs).windows := by
      simp [partsAll, parts, Parts.none]
    refine push (fun hs => ?_) hset
    exact (wellBuilt_append (hgroup ▸ hroom.symm)).2 ⟨hs, hfs.operation kind hset⟩

/-- An equality is added to the last entry, which is a join before and after. -/
theorem joinOn {column1 column2 : String} {c : Option CollectionRef}
    (h : s.joinOn column1 c column2 = .ok s') : s.Keeps s' := by
  rw [Search.joinOn] at h
  split at h
  · next j hlast =>
    cases h
    have hharmless (j : Join) : (Entry.join j).Harmless := ⟨rfl, rfl, trivial⟩
    have hentries : s.entries = s.entries.dropLast ++ [.join j] :=
      (List.dropLast_append_getLast? _ hlast).symm
    -- the join before is taken off, and the join after put in its place
    constructor
    · intro hs
      rw [hentries] at hs
      exact (hharmless _).wellBuilt_append_iff.2 ((hharmless j).wellBuilt_append_iff.1 hs)
    · rw [congrArg partsAll hentries]
      simp [partsAll_append, partsAll, parts, Parts.none]
  · cases h

end Keeps

end Search

namespace Build

/-! ## What programs reach -/

mutual

/-- The call takes no entry and no kind of condition as it is, at any depth. -/
def SearchCall.Checked : SearchCall → Prop
  | .push _ | .condition _ _ _ | .conditionNot _ _ _ => False
  | .operation _ calls | .operationOn _ _ calls => FindCall.CheckedAll calls
  | _ => True

/-- The same for a call on a find. -/
def FindCall.Checked : FindCall → Prop
  | .search c => c.Checked
  | .get _ | .getAs _ _ | .getAll _ => True

/-- The same for calls on a find. -/
def FindCall.CheckedAll : List FindCall → Prop
  | [] => True
  | c :: cs => c.Checked ∧ FindCall.CheckedAll cs

end

mutual

/-- The call can make `s'` of `s`. -/
def SearchCall.Makes : SearchCall → Search → Search → Prop
  | .operation kind calls, s, s' =>
    ∃ f, FindCall.Reaches calls (Find.on s.collection) f ∧ s.operation kind f.entries = .ok s'
  | .operationOn kind c calls, s, s' =>
    ∃ f, FindCall.Reaches calls (Find.on c) f ∧ s.operation kind f.entries = .ok s'
  | c, s, s' => c.apply s = .ok s'

/-- The call can make `f'` of `f`. -/
def FindCall.Makes : FindCall → Find → Find → Prop
  | .search c, f, f' => c.Makes f.toSearch f'.toSearch ∧ f'.projection = f.projection
  | c, f, f' => c.apply f = .ok f'

/-- The calls, some of which may be left out, can make `f'` of `f`. -/
def FindCall.Reaches : List FindCall → Find → Find → Prop
  | [], f, f' => f' = f
  | c :: cs, f, f' => FindCall.Reaches cs f f' ∨ ∃ m, c.Makes f m ∧ FindCall.Reaches cs m f'

end

/-- The calls of any kind, some of which may be left out, can make `b` of `a`. -/
def Reaches {α γ : Type} (makes : γ → α → α → Prop) : List γ → α → α → Prop
  | [], a, b => b = a
  | c :: cs, a, b => Reaches makes cs a b ∨ ∃ m, makes c a m ∧ Reaches makes cs m b

namespace ChangeCall

/-- The call takes no entry and no kind of condition as it is. -/
def Checked : ChangeCall → Prop
  | .search c => c.Checked
  | .assign _ _ _ => True

/-- The call can make `s'` of `s`. -/
def Makes : ChangeCall → Search → Search → Prop
  | .search c, s, s' => c.Makes s s'
  | .assign field v op, s, s' => s.assign field v op = s'

end ChangeCall

namespace Program

/-- None of the calls takes an entry or a kind of condition as it is. -/
def Checked : Program → Prop
  | .find calls => FindCall.CheckedAll calls
  | .count calls | .delete calls => ∀ c ∈ calls, c.Checked
  | .update calls | .replace calls => ∀ c ∈ calls, c.Checked
  | .insert _ | .create _ => True

/-- The program for a statement over entries can come to the statement, on its
way or in the end. -/
def Reaches : Program → CollectionRef → Statement → Prop
  | .find calls, c, s => ∃ f, FindCall.Reaches calls (Find.on c) f ∧ s = .find f
  | .count calls, c, s => ∃ q, Build.Reaches SearchCall.Makes calls (Search.on c) q ∧ s = .count q
  | .delete calls, c, s => ∃ q, Build.Reaches SearchCall.Makes calls (Search.on c) q ∧ s = .delete q
  | .update calls, c, s => ∃ q, Build.Reaches ChangeCall.Makes calls (Search.on c) q ∧ s = .update q
  | .replace calls, c, s =>
    ∃ q, Build.Reaches ChangeCall.Makes calls (Search.on c) q ∧ s = .replace q
  | .insert _, _, _ | .create _, _, _ => False

end Program

/-! ## Runs are among them -/

mutual

theorem SearchCall.makes_of_apply : ∀ {c : SearchCall} {s s' : Search},
    c.apply s = .ok s' → c.Makes s s'
  | .operation kind calls, s, s', h => by
    rw [SearchCall.apply] at h
    obtain ⟨f, hf, h⟩ := Run.outcome_bind_eq_ok.1 h
    exact ⟨f, FindCall.reaches_of_applyAll hf, h⟩
  | .operationOn kind c calls, s, s', h => by
    rw [SearchCall.apply] at h
    obtain ⟨f, hf, h⟩ := Run.outcome_bind_eq_ok.1 h
    exact ⟨f, FindCall.reaches_of_applyAll hf, h⟩
  | .whereEq .., _, _, h | .whereNot .., _, _, h | .whereLike .., _, _, h
  | .whereLower .., _, _, h | .whereHigher .., _, _, h | .whereNull .., _, _, h
  | .whereNotNull .., _, _, h | .whereEmpty .., _, _, h | .whereIn .., _, _, h
  | .whereInPrepared .., _, _, h | .whereBetween .., _, _, h | .condition .., _, _, h
  | .conditionNot .., _, _, h | .push .., _, _, h | .limit .., _, _, h | .limitTo .., _, _, h
  | .onlyOne, _, _, h | .index .., _, _, h | .page .., _, _, h | .orderBy .., _, _, h
  | .groupBy .., _, _, h | .join .., _, _, h | .on .., _, _, h | .onCollection .., _, _, h => h

theorem FindCall.makes_of_apply : ∀ {c : FindCall} {f f' : Find}, c.apply f = .ok f' → c.Makes f f'
  | .search c, f, f', h => by
    rw [FindCall.apply, onSearch, Run.outcome_map_eq_ok] at h
    obtain ⟨s, hs, rfl⟩ := h
    exact ⟨SearchCall.makes_of_apply hs, rfl⟩
  | .get _, _, _, h | .getAs _ _, _, _, h | .getAll _, _, _, h => h

/-- A run up to the first error leaves nothing out. -/
theorem FindCall.reaches_of_applyAll : ∀ {calls : List FindCall} {f f' : Find},
    FindCall.applyAll calls f = .ok f' → FindCall.Reaches calls f f'
  | [], f, f', h => by
    rw [FindCall.applyAll] at h
    exact (Except.ok.inj h).symm
  | c :: cs, f, f', h => by
    rw [FindCall.applyAll] at h
    obtain ⟨m, hm, h⟩ := Run.outcome_bind_eq_ok.1 h
    exact .inr ⟨m, FindCall.makes_of_apply hm, FindCall.reaches_of_applyAll h⟩

end

theorem ChangeCall.makes_of_apply {c : ChangeCall} {s s' : Search} (h : c.apply s = .ok s') :
    c.Makes s s' := by
  cases c with
  | search c => exact SearchCall.makes_of_apply h
  | assign field v op => exact Except.ok.inj h

theorem FindCall.reaches_iff {calls : List FindCall} {f f' : Find} :
    FindCall.Reaches calls f f' ↔ Build.Reaches FindCall.Makes calls f f' := by
  induction calls generalizing f with
  | nil => exact Iff.rfl
  | cons c cs ih => simp only [FindCall.Reaches, Build.Reaches, ih]

section Runs

variable {α γ : Type} {apply : γ → α → Except QueryError α} {makes : γ → α → α → Prop}
  (hmakes : ∀ {c a b}, apply c a = .ok b → makes c a b)

include hmakes

/-- **A run that drops the calls that are refused** is among those reached. -/
theorem reaches_runAll (calls : List γ) (a : α) : Reaches makes calls a (runAll apply calls a) := by
  induction calls generalizing a with
  | nil => rfl
  | cons c cs ih =>
    cases h : apply c a with
    | error e =>
      -- a call that is refused is one that is left out
      have hdropped : (attempt (apply c) a).1 = a := by rw [attempt, h]
      rw [runAll, List.foldl_cons, hdropped]
      exact .inl (ih a)
    | ok b =>
      have hdone : (attempt (apply c) a).1 = b := by rw [attempt, h]
      rw [runAll, List.foldl_cons, hdone]
      exact .inr ⟨b, hmakes h, ih b⟩

/-- And so is a run up to the first error. -/
theorem reaches_of_runStrict {calls : List γ} {a b : α} (h : runStrict apply calls a = .ok b) :
    Reaches makes calls a b := by
  induction calls generalizing a with
  | nil => exact (Except.ok.inj h).symm
  | cons c cs ih =>
    rw [runStrict, List.foldlM_cons] at h
    obtain ⟨m, hm, h⟩ := Run.outcome_bind_eq_ok.1 h
    exact .inr ⟨m, hmakes hm, ih h⟩

end Runs

theorem FindCall.reaches_runAll (calls : List FindCall) (f : Find) :
    FindCall.Reaches calls f (runAll FindCall.apply calls f) :=
  FindCall.reaches_iff.2 (Build.reaches_runAll FindCall.makes_of_apply calls f)

namespace Program

/-- **What a program for a statement over entries builds**, it reaches. -/
theorem reaches_of_build {p : Program} {c : CollectionRef} {s : Statement} (h : p.build c = .ok s) :
    (∃ calls, p = .insert calls) ∨ (∃ calls, p = .create calls) ∨ p.Reaches c s := by
  cases p with
  | insert calls => exact .inl ⟨calls, rfl⟩
  | create calls => exact .inr (.inl ⟨calls, rfl⟩)
  | find calls =>
    obtain ⟨f, hf, rfl⟩ := Run.outcome_map_eq_ok.1 h
    exact .inr (.inr ⟨f, FindCall.reaches_of_applyAll hf, rfl⟩)
  | count calls =>
    obtain ⟨q, hq, rfl⟩ := Run.outcome_map_eq_ok.1 h
    exact .inr (.inr ⟨q, reaches_of_runStrict SearchCall.makes_of_apply hq, rfl⟩)
  | delete calls =>
    obtain ⟨q, hq, rfl⟩ := Run.outcome_map_eq_ok.1 h
    exact .inr (.inr ⟨q, reaches_of_runStrict SearchCall.makes_of_apply hq, rfl⟩)
  | update calls =>
    obtain ⟨q, hq, rfl⟩ := Run.outcome_map_eq_ok.1 h
    exact .inr (.inr ⟨q, reaches_of_runStrict ChangeCall.makes_of_apply hq, rfl⟩)
  | replace calls =>
    obtain ⟨q, hq, rfl⟩ := Run.outcome_map_eq_ok.1 h
    exact .inr (.inr ⟨q, reaches_of_runStrict ChangeCall.makes_of_apply hq, rfl⟩)

end Program

/-! ## All that is reached is well built -/

open Search Entry

theorem wellBuilt_nil : WellBuilt [] := by
  constructor <;> simp [partsAll, Parts.none, BoundedAll]

mutual

/-- **A call keeps a search well built.** What an operator is put over was built
by calls of the same kind. -/
theorem SearchCall.keeps : ∀ {c : SearchCall}, c.Checked → ∀ {s s' : Search},
    c.Makes s s' → s.Keeps s'
  | .operation kind calls, hc, s, s', h => by
    obtain ⟨f, hf, h⟩ := h
    have hkeeps := FindCall.keeps_of_reaches hc hf
    exact .operation (hkeeps.wellBuilt wellBuilt_nil) hkeeps.assignments h
  | .operationOn kind c calls, hc, s, s', h => by
    obtain ⟨f, hf, h⟩ := h
    have hkeeps := FindCall.keeps_of_reaches hc hf
    exact .operation (hkeeps.wellBuilt wellBuilt_nil) hkeeps.assignments h
  | .whereEq .., _, _, _, rfl | .whereLike .., _, _, _, rfl | .whereLower .., _, _, _, rfl
  | .whereHigher .., _, _, _, rfl | .whereNull .., _, _, _, rfl | .whereEmpty .., _, _, _, rfl
  | .whereIn .., _, _, _, rfl | .whereInPrepared .., _, _, _, rfl => .condition (by decide) _ _
  | .whereNot .., _, _, _, rfl | .whereNotNull .., _, _, _, rfl => .conditionNot (by decide) _ _
  | .whereBetween .., _, _, _, rfl => .harmless ⟨rfl, rfl, fun _ => rfl⟩
  | .orderBy .., _, _, _, rfl | .groupBy .., _, _, _, rfl | .join .., _, _, _, rfl =>
    .harmless ⟨rfl, rfl, trivial⟩
  | .limit .., _, _, _, h | .limitTo .., _, _, _, h | .onlyOne, _, _, _, h
  | .index .., _, _, _, h => .window h
  | .page page size, _, s, s', h => by
    change s.page page size = .ok s' at h
    rw [Search.page] at h
    split at h
    · cases h
    · exact .window h
  | .on .., _, _, _, h | .onCollection .., _, _, _, h => .joinOn h

theorem FindCall.keeps : ∀ {c : FindCall}, c.Checked → ∀ {f f' : Find},
    c.Makes f f' → f.toSearch.Keeps f'.toSearch
  | .search _, hc, _, _, h => SearchCall.keeps hc h.1
  | .get _, _, _, _, rfl | .getAs _ _, _, _, _, rfl => .refl _
  | .getAll ts, _, f, f', h => by
    have hsearch (ts : List Target) (f : Find) :
        (ts.foldl (fun f t => f.get t none) f).toSearch = f.toSearch := by
      induction ts generalizing f with
      | nil => rfl
      | cons t ts ih => rw [List.foldl_cons, ih]; rfl
    obtain rfl : ts.foldl (fun f t => f.get t none) f = f' := Except.ok.inj h
    rw [hsearch]
    exact .refl _

theorem FindCall.keeps_of_reaches : ∀ {calls : List FindCall}, FindCall.CheckedAll calls →
    ∀ {f f' : Find}, FindCall.Reaches calls f f' → f.toSearch.Keeps f'.toSearch
  | [], _, _, _, rfl => .refl _
  | _ :: _, hc, _, _, .inl h => FindCall.keeps_of_reaches hc.2 h
  | _ :: _, hc, _, _, .inr ⟨_, hm, h⟩ => (FindCall.keeps hc.1 hm).trans
      (FindCall.keeps_of_reaches hc.2 h)

end

/-- An assignment is added at the top level. -/
theorem ChangeCall.wellBuilt {c : ChangeCall} (hc : c.Checked) {s s' : Search}
    (h : c.Makes s s') (hs : WellBuilt s.entries) : WellBuilt s'.entries := by
  cases c with
  | search c => exact (SearchCall.keeps hc h).wellBuilt hs
  | assign field v op =>
    cases h
    refine (wellBuilt_append (.inr rfl)).2 ⟨hs, Nat.zero_le 1, nofun, ⟨trivial, trivial⟩, ?_⟩
    simp [Flat]

/-- What each call keeps, a program keeps. -/
theorem invariant_of_reaches {α γ : Type} {makes : γ → α → α → Prop} {I : α → Prop} {calls : List γ}
    (hcalls : ∀ c ∈ calls, ∀ {a b}, makes c a b → I a → I b) {a b : α}
    (h : Reaches makes calls a b) (ha : I a) : I b := by
  induction calls generalizing a with
  | nil =>
    cases h
    exact ha
  | cons c cs ih =>
    obtain ⟨hc, hcs⟩ := List.forall_mem_cons.1 hcalls
    rcases h with h | ⟨m, hm, h⟩
    · exact ih hcs h ha
    · exact ih hcs h (hc hm ha)

namespace Program

/-- A search without assignments that a program of checked calls comes to. -/
theorem search_of_reaches {calls : List SearchCall} (hcalls : ∀ c ∈ calls, c.Checked)
    {c : CollectionRef} {s : Search} (h : Build.Reaches SearchCall.Makes calls (Search.on c) s) :
    WellBuilt s.entries ∧ (partsAll s.entries).assignments = [] := by
  have hkeeps : (Search.on c).Keeps s :=
    invariant_of_reaches (I := (Search.on c).Keeps)
      (fun c hc _ _ hm h => h.trans (SearchCall.keeps (hcalls c hc) hm)) h (.refl _)
  exact ⟨hkeeps.wellBuilt wellBuilt_nil, hkeeps.assignments⟩

variable {p : Program} {c : CollectionRef} {s : Statement}

theorem wellBuilt (hp : p.Checked) (h : p.Reaches c s) : s.WellBuilt := by
  cases p with
  | find calls =>
    obtain ⟨f, hf, rfl⟩ := h
    have hkeeps := FindCall.keeps_of_reaches hp hf
    exact ⟨hkeeps.wellBuilt wellBuilt_nil, hkeeps.assignments⟩
  | count calls =>
    obtain ⟨q, hq, rfl⟩ := h
    exact search_of_reaches hp hq
  | delete calls =>
    obtain ⟨q, hq, rfl⟩ := h
    exact search_of_reaches hp hq
  | update calls =>
    obtain ⟨q, hq, rfl⟩ := h
    exact invariant_of_reaches (I := fun q => WellBuilt q.entries)
      (fun c hc _ _ hm => ChangeCall.wellBuilt (hp c hc) hm) hq wellBuilt_nil
  | replace calls =>
    obtain ⟨q, hq, rfl⟩ := h
    exact invariant_of_reaches (I := fun q => WellBuilt q.entries)
      (fun c hc _ _ hm => ChangeCall.wellBuilt (hp c hc) hm) hq wellBuilt_nil
  | insert _ | create _ => exact h.elim

/-- **Misuse is refused by the call that commits it**, and never reaches a back
end: whatever a program of checked calls comes to is well built, and no language
refuses it for a second window or a misplaced entry, with any values. -/
theorem misuse_never_rendered (hp : p.Checked) (h : p.Reaches c s) :
    s.WellBuilt ∧ ∀ (l : Language) (values : List Value) (e : QueryError),
      l.compile s values = .error e → ¬ e.IsMisuse :=
  ⟨wellBuilt hp h, fun l values => l.innocent_compile (wellBuilt hp h) values⟩

/-- An update that takes a window inside an operator and then asks for another
twice, for a page before the first, and for an equality without a join. -/
def crowded : Program := .update [
  .search (.operation .or [
    .search (.limit 5 1),
    .search (.whereBetween ⟨.plain "price", none⟩ .prepared (.literal (.int 9)))]),
  .search (.limitTo 3),
  .assign "stars" .prepared none,
  .search (.operationOn .and ⟨"shop", "owners"⟩ [.search .onlyOne]),
  .search (.page 0 10),
  .search (.on "owner" "id")]

/-- What is left of it. -/
def uncrowded : Statement := .update ⟨⟨"shop", "items"⟩,
  [.operation .or [
      .limit ⟨5, 1⟩,
      .condition ⟨.between, ⟨.plain "price", none⟩, .prepared, some (.literal (.int 9))⟩],
    .set ⟨.plain "stars", .prepared, none⟩]⟩

theorem crowded_never_misused :
    crowded.Checked ∧ crowded.Reaches ⟨"shop", "items"⟩ uncrowded ∧ uncrowded.WellBuilt ∧
      Language.document.compile uncrowded [.int 1] = .error (.missingPreparedValue 1) ∧
      ¬ (QueryError.missingPreparedValue 1).IsMisuse := by
  have hchecked : crowded.Checked := by
    simp [crowded, Checked, ChangeCall.Checked, SearchCall.Checked, FindCall.CheckedAll,
      FindCall.Checked]
  have hreaches : crowded.Reaches ⟨"shop", "items"⟩ uncrowded :=
    ⟨_, reaches_runAll ChangeCall.makes_of_apply _ _, rfl⟩
  have herror : Language.document.compile uncrowded [.int 1] = .error (.missingPreparedValue 1) := rfl
  obtain ⟨hbuilt, hinnocent⟩ := misuse_never_rendered hchecked hreaches
  exact ⟨hchecked, hreaches, hbuilt, herror, hinnocent _ _ _ herror⟩

end Program

end Build

end QueryLayer
