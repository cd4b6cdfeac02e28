import QueryLayer.Dialect.Registry
import Mathlib.Data.List.Induction
import Mathlib.Data.List.Pairwise

/-!
# The history of a registry

A registry is known from the calls that made it. A dialect stands in it if the last
call on its name, in whatever spelling, registered it, and the dialects stand in the
order of these calls (`dialects_run`). The list is searched from its front and loses
one dialect in each removal, so this rests on one fact: of each name there is one
dialect at most (`Distinct`), and a removal is then a filter
(`dialects_unregister`).
-/

namespace QueryLayer

open Text

namespace Registry

/-- A call that changes a registry. -/
inductive Call where
  | register (d : Dialect)
  /-- Removes the dialect of a name. -/
  | unregister (name : String)

namespace Call

/-- The name that the call is on. -/
def name : Call → String
  | .register d => d.name
  | .unregister n => n

/-- The call is on this name, in whatever spelling. -/
def isOn (n : String) (c : Call) : Bool := sameName c.name n

/-- What the call puts into the registry. -/
def registered : Call → List Dialect
  | .register d => [d]
  | .unregister _ => []

/-- The registry after the call. -/
def apply (r : Registry) : Call → Registry
  | .register d => r.register d
  | .unregister n => (r.remove n).2

end Call

/-- The registry after several calls. -/
def run (r : Registry) (calls : List Call) : Registry := calls.foldl Call.apply r

theorem run_append (r : Registry) (calls calls' : List Call) :
    run r (calls ++ calls') = run (run r calls) calls' := List.foldl_append

/-- The dialects whose registration is the last call on their name, in the order
of these calls. -/
def survivors : List Call → List Dialect
  | [] => []
  | .register d :: cs => if cs.any (Call.isOn d.name) then survivors cs else d :: survivors cs
  | .unregister _ :: cs => survivors cs

/-- The last call on the name registers this dialect. -/
def LastRegistered (calls : List Call) (n : String) (d : Dialect) : Prop :=
  ∃ before after, calls = before ++ .register d :: after ∧ sameName d.name n = true ∧
    ∀ c ∈ after, c.isOn n = false

/-- Of each name there is one dialect at most. -/
def Distinct (r : Registry) : Prop :=
  r.dialects.Pairwise fun d e => sameName d.name e.name = false

variable {r : Registry} {d : Dialect} {n m : String} {c : Call} {calls : List Call}

/-! ## Removals -/

/-- **A removal gives what a lookup would give**, and leaves the registry without
it. -/
theorem remove_eq (r : Registry) (n : String) : r.remove n = (r.get? n, r.unregister n) := by
  rw [remove, get?, unregister, List.eraseP_eq_eraseIdx,
    List.find?_eq_bind_findIdx?_getElem?]
  cases r.dialects.findIdx? (named n) <;> rfl

/-- Where one item at most has a property, erasing it is filtering. -/
theorem eraseP_eq_filter {α : Type} {p : α → Bool} {xs : List α}
    (h : xs.Pairwise fun x y => p x = true → p y = false) :
    xs.eraseP p = xs.filter fun x => !p x := by
  induction xs with
  | nil => rfl
  | cons x xs ih =>
    obtain ⟨hx, hxs⟩ := List.pairwise_cons.1 h
    cases hp : p x with
    | false => rw [List.eraseP_cons_of_neg (by simp [hp]), ih hxs, List.filter_cons_of_pos (by simp [hp])]
    | true =>
      have hrest : xs.filter (fun y => !p y) = xs :=
        List.filter_eq_self.2 fun y hy => by simp [hx y hy hp]
      rw [List.eraseP_cons_of_pos hp, List.filter_cons_of_neg (by simp [hp]), hrest]

/-- **A removal takes out every dialect of the name**, since there is one at most. -/
theorem dialects_unregister (h : r.Distinct) (n : String) :
    (r.unregister n).dialects = r.dialects.filter fun d => !sameName d.name n := by
  refine eraseP_eq_filter (h.imp fun {d e} hde hd => ?_)
  rw [named, sameName_comm, ← sameName_congr_left hd, hde]

/-- What a call leaves of the registry, and what it adds. -/
theorem dialects_apply (h : r.Distinct) (c : Call) : (c.apply r).dialects =
    (r.dialects.filter fun d => !c.isOn d.name) ++ c.registered := by
  have hleft : (r.unregister c.name).dialects = r.dialects.filter fun d => !c.isOn d.name := by
    rw [dialects_unregister h]
    exact List.filter_congr fun d _ => by rw [Call.isOn, sameName_comm]
  cases c with
  | register d => exact congrArg (· ++ [d]) hleft
  | unregister n =>
    rw [Call.apply, remove_eq, Call.registered, List.append_nil]
    exact hleft

/-- **A call keeps the names distinct.** -/
theorem Distinct.apply (h : r.Distinct) (c : Call) : (c.apply r).Distinct := by
  rw [Distinct, dialects_apply h, List.pairwise_append]
  refine ⟨h.filter _, by cases c <;> simp [Call.registered], fun e he d hd => ?_⟩
  have hon : c.isOn e.name = false := by simpa using (List.mem_filter.1 he).2
  cases c with
  | unregister n => simp [Call.registered] at hd
  | register d' =>
    obtain rfl : d = d' := List.mem_singleton.1 hd
    rwa [sameName_comm]

/-! ## Lookups -/

/-- A lookup finds the dialect of the name. -/
theorem get?_eq_some_iff (h : r.Distinct) :
    r.get? n = some d ↔ d ∈ r.dialects ∧ sameName d.name n = true := by
  constructor
  · intro hd
    have hnamed : named n d = true := List.find?_some hd
    exact ⟨List.mem_of_find?_eq_some hd, hnamed⟩
  · rintro ⟨hmem, hd⟩
    -- what stands before it has another name
    obtain ⟨before, after, hsplit⟩ := List.append_of_mem hmem
    refine List.find?_eq_some_iff_append.2 ⟨hd, before, after, hsplit, fun e he => ?_⟩
    rw [Distinct, hsplit, List.pairwise_append] at h
    have hother := h.2.2 e he d List.mem_cons_self
    rw [named, ← sameName_congr hd, hother]
    rfl

/-- A removal changes the lookups of its name and no other. -/
theorem get?_unregister (h : r.Distinct) (n m : String) :
    (r.unregister n).get? m = if sameName m n then none else r.get? m := by
  rw [get?, dialects_unregister h, List.find?_filter]
  split
  · next hm =>
    rw [List.find?_eq_none]
    intro d _
    -- a dialect of the one name has the other name as well
    rw [named, sameName_congr hm]
    cases sameName d.name n <;> simp
  · next hm =>
    refine congrArg (List.find? · r.dialects) (funext fun d => ?_)
    by_cases hd : named m d = true
    · have hother : sameName d.name n = false := by
        rw [sameName_congr_left hd]
        exact Bool.eq_false_iff.2 hm
      simp [hd, hother]
    · simp [hd]

/-! ## Histories -/

/-- One call more takes out the survivors of its name, and adds what it
registers. -/
theorem survivors_concat (calls : List Call) (c : Call) : survivors (calls ++ [c]) =
    ((survivors calls).filter fun d => !c.isOn d.name) ++ c.registered := by
  induction calls with
  | nil => cases c <;> rfl
  | cons c' calls ih =>
    cases c' with
    | unregister n => exact ih
    | register d =>
      rw [List.cons_append, survivors, survivors, List.any_append, List.any_cons, List.any_nil,
        Bool.or_false, ih]
      cases calls.any (Call.isOn d.name) <;> cases hd : c.isOn d.name <;> simp [hd]

/-- **After a run the survivors of its calls stand in the registry**, and of each
name there is one at most. -/
theorem dialects_run (calls : List Call) :
    (run empty calls).dialects = survivors calls ∧ (run empty calls).Distinct := by
  induction calls using List.reverseRecOn with
  | nil => exact ⟨rfl, .nil⟩
  | append_singleton calls c ih =>
    obtain ⟨hdialects, hdistinct⟩ := ih
    have hrun : run empty (calls ++ [c]) = c.apply (run empty calls) := run_append empty calls [c]
    rw [hrun, dialects_apply hdistinct, hdialects, survivors_concat]
    exact ⟨rfl, hdistinct.apply c⟩

/-- A dialect survives if the last call on its name registers it. -/
theorem mem_survivors_iff : d ∈ survivors calls ↔
    ∃ before after, calls = before ++ .register d :: after ∧ ∀ c ∈ after, c.isOn d.name = false := by
  induction calls with
  | nil => simp [survivors]
  | cons c calls ih =>
    have hskip : (d ∈ survivors calls ∨ c = .register d ∧ ∀ c ∈ calls, c.isOn d.name = false) ↔
        ∃ before after, c :: calls = before ++ .register d :: after ∧
          ∀ c ∈ after, c.isOn d.name = false := by
      rw [ih]
      constructor
      · rintro (⟨before, after, rfl, hafter⟩ | ⟨rfl, hafter⟩)
        · exact ⟨c :: before, after, rfl, hafter⟩
        · exact ⟨[], calls, rfl, hafter⟩
      · rintro ⟨before, after, hsplit, hafter⟩
        cases before with
        | nil =>
          obtain ⟨rfl, rfl⟩ := List.cons.inj hsplit
          exact .inr ⟨rfl, hafter⟩
        | cons c' before =>
          obtain ⟨rfl, rfl⟩ := List.cons.inj hsplit
          exact .inl ⟨before, after, rfl, hafter⟩
    rw [← hskip]
    cases c with
    | unregister n => simp [survivors]
    | register e =>
      rw [survivors]
      by_cases hon : calls.any (Call.isOn e.name)
      · rw [if_pos hon]
        obtain ⟨c, hc, hname⟩ := List.any_eq_true.1 hon
        refine ⟨.inl, ?_⟩
        rintro (hd | ⟨heq, hafter⟩)
        · exact hd
        · cases heq
          rw [hafter c hc] at hname
          cases hname
      · rw [if_neg hon, List.mem_cons]
        have hnone : ∀ c ∈ calls, c.isOn e.name = false := fun c hc =>
          Bool.eq_false_iff.2 fun hname => hon (List.any_eq_true.2 ⟨c, hc, hname⟩)
        constructor
        · rintro (rfl | hd)
          · exact .inr ⟨rfl, hnone⟩
          · exact .inl hd
        · rintro (hd | ⟨heq, -⟩)
          · exact .inr hd
          · cases heq
            exact .inl rfl

/-- The dialect of a name is the survivor with this name. -/
theorem lastRegistered_iff :
    LastRegistered calls n d ↔ d ∈ survivors calls ∧ sameName d.name n = true := by
  have hon : sameName d.name n = true → ∀ c : Call, c.isOn n = c.isOn d.name := by
    intro hd c
    exact (sameName_congr hd c.name).symm
  rw [mem_survivors_iff, LastRegistered]
  constructor
  · rintro ⟨before, after, hsplit, hd, hafter⟩
    exact ⟨⟨before, after, hsplit, fun c hc => by rw [← hon hd, hafter c hc]⟩, hd⟩
  · rintro ⟨⟨before, after, hsplit, hafter⟩, hd⟩
    exact ⟨before, after, hsplit, hd, fun c hc => by rw [hon hd, hafter c hc]⟩

/-- A registry from which a history may start is made by registering its dialects. -/
theorem run_eq_run_empty (hstart : r = empty ∨ r = defaults) (calls : List Call) :
    run r calls = run empty (r.dialects.map .register ++ calls) := by
  have hmade : run empty (r.dialects.map .register) = r := by
    rcases hstart with rfl | rfl
    · rfl
    · rfl
  rw [run_append, hmade]

/-- **The last write wins.** Whatever calls change the empty registry or the
default one, no two of its names are the same but for case. A lookup gives the
dialect that the last call on the name registered, the dialects of the start
counted as registered first, and nothing where there is no such call or it is a
removal. The names stand in the order of their last registrations. A removal gives
what the lookup would give, and behind it the lookups of this name give nothing and
all others what they gave. -/
theorem run_last_write_wins (hstart : r = empty ∨ r = defaults) (calls : List Call) :
    ((run r calls).names.Pairwise fun a b => sameName a b = false) ∧
      (∀ n d, (run r calls).get? n = some d ↔
        LastRegistered (r.dialects.map .register ++ calls) n d) ∧
      (run r calls).names = (survivors (r.dialects.map .register ++ calls)).map (·.name) ∧
      ∀ n, ((run r calls).remove n).1 = (run r calls).get? n ∧
        ∀ m, ((run r calls).remove n).2.get? m =
          if sameName m n then none else (run r calls).get? m := by
  obtain ⟨hdialects, hdistinct⟩ := dialects_run (r.dialects.map .register ++ calls)
  rw [← run_eq_run_empty hstart] at hdialects hdistinct
  refine ⟨List.pairwise_map.2 hdistinct, fun n d => ?_, by rw [names, hdialects], fun n => ?_⟩
  · rw [get?_eq_some_iff hdistinct, hdialects, lastRegistered_iff]
  · rw [remove_eq]
    exact ⟨rfl, fun m => get?_unregister hdistinct n m⟩

theorem run_of_respelled_last_write_wins :
    (run defaults [.register (.new "mysql" .embedded), .unregister "SQLITE"]).names =
        ["MariaDB", "PostgreSQL", "MsSQL", "H2Portable", "mysql"] ∧
      (run defaults [.register (.new "mysql" .embedded), .unregister "SQLITE"]).get? "MySQL" =
        some (.new "mysql" .embedded) ∧
      ((run defaults [.register (.new "mysql" .embedded), .unregister "SQLITE"]).remove "MYSQL").1 =
        some (.new "mysql" .embedded) := by
  obtain ⟨-, hget, hnames, hremove⟩ := run_last_write_wins (.inr rfl)
    [.register (.new "mysql" .embedded), .unregister "SQLITE"]
  have hlast : ∀ n, sameName "mysql" n = true → Call.isOn n (.unregister "SQLITE") = false →
      LastRegistered (defaults.dialects.map .register ++
        [.register (.new "mysql" .embedded), .unregister "SQLITE"]) n (.new "mysql" .embedded) :=
    fun n hn hother => ⟨_, [.unregister "SQLITE"], rfl, hn, by simpa using hother⟩
  refine ⟨hnames, (hget _ _).2 (hlast "MySQL" (by decide) (by decide)), ?_⟩
  rw [(hremove "MYSQL").1, (hget _ _).2 (hlast "MYSQL" (by decide) (by decide))]

end Registry

end QueryLayer
