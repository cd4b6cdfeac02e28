import QueryLayer.Session.Group
import QueryLayer.Proofs.Walk.Run
import Mathlib.Data.List.Induction

/-!
# The calls that a group makes

What an executor was asked is seen by an executor that writes down each command
it is given (`Executor.recording`) and else does as the first one. A batch is
either answered to the end (`Answers`), or it stops at the first command that is
not answered (`Stops`); what is written down in each case is proved by induction
on the batch, one command at a time (`runEach_recording`). A group compiles all
its statements before that, so a statement without a command leaves the record
empty (`group_runs_all_or_nothing`). The mode of a call is told from a table of
the kinds of statements (`Mode.wanted`).
-/

namespace QueryLayer

namespace Session

variable {σ : Type}

/-! ## Calls on record -/

/-- A command and what is wanted back from it. -/
abbrev Call := Command × Mode

/-- The executor that also keeps the commands it is given. -/
def Executor.recording (e : Executor σ) : Executor (σ × List Call) where
  execute command mode s :=
    let (reply, next) := e.execute command mode s.1
    (reply, next, s.2 ++ [(command, mode)])

/-- The connection whose executor keeps its commands. -/
def Connection.recording (c : Connection σ) : Connection (σ × List Call) :=
  ⟨c.name, c.language, c.executor.recording⟩

/-- The executor answers the calls one after the other. -/
inductive Answers (e : Executor σ) : List Call → σ → List Outcome → σ → Prop
  | nil {s : σ} : Answers e [] s [] s
  | cons {call : Call} {calls : List Call} {s m s' : σ} {o : Outcome} {os : List Outcome} :
      e.execute call.1 call.2 s = (.answer o, m) → Answers e calls m os s' →
        Answers e (call :: calls) s (o :: os) s'

/-- The executor answers the calls up to one, and this is the reply to that one.
The calls that were made end with it. -/
def Stops (e : Executor σ) (calls : List Call) (s : σ) (made : List Call) (reply : Reply) (s' : σ) :
    Prop :=
  ∃ before call after os m, calls = before ++ call :: after ∧ made = before ++ [call] ∧
    Answers e before s os m ∧ e.execute call.1 call.2 m = (reply, s') ∧ ∀ o, reply ≠ .answer o

section Batch

variable {e : Executor σ} {c : Connection σ} {call : Call} {calls made : List Call} {s m s' : σ}
  {o : Outcome} {os : List Outcome} {reply : Reply} {text : String}

theorem Answers.length_eq (h : Answers e calls s os s') : os.length = calls.length := by
  induction h with
  | nil => rfl
  | cons _ _ ih => rw [List.length_cons, List.length_cons, ih]

/-- The first call is not answered. -/
theorem Stops.head (h : e.execute call.1 call.2 s = (reply, s')) (hreply : ∀ o, reply ≠ .answer o) :
    Stops e (call :: calls) s [call] reply s' :=
  ⟨[], call, calls, [], s, rfl, rfl, .nil, h, hreply⟩

/-- The first call is answered, and a later one is not. -/
theorem Stops.tail (h : e.execute call.1 call.2 s = (.answer o, m))
    (hstops : Stops e calls m made reply s') : Stops e (call :: calls) s (call :: made) reply s' := by
  obtain ⟨before, last, after, os, m', rfl, rfl, hbefore, hlast, hreply⟩ := hstops
  exact ⟨call :: before, last, after, o :: os, m', rfl, rfl, .cons h hbefore, hlast, hreply⟩

/-! One step: the executor answers the call, or the batch ends with it. -/

theorem execute_recording (log : List Call) (h : c.executor.execute call.1 call.2 s = (reply, m)) :
    c.recording.executor.execute call.1 call.2 (s, log) = (reply, m, log ++ [call]) := by
  change ((c.executor.execute call.1 call.2 s).1, (c.executor.execute call.1 call.2 s).2,
    log ++ [call]) = _
  rw [h]

theorem runEach_of_answer (h : c.executor.execute call.1 call.2 s = (.answer o, m)) :
    c.runEach text (call :: calls) s =
      ((c.runEach text calls m).1.map (o :: ·), (c.runEach text calls m).2) := by
  rw [Connection.runEach, h]
  rfl

theorem runEach_of_error {error : QueryError}
    (h : c.executor.execute call.1 call.2 s = (reply, m)) (hreply : reply.toExcept text = .error error) :
    c.runEach text (call :: calls) s = (.error error, m) := by
  rw [Connection.runEach, h]
  dsimp only
  rw [hreply]

/-- A reply is an answer or makes an error. -/
theorem Reply.answer_or_error (reply : Reply) (text : String) : (∃ o, reply = .answer o) ∨
    (∀ o, reply ≠ .answer o) ∧ ∃ error, reply.toExcept text = .error error := by
  cases reply with
  | answer o => exact .inl ⟨o, rfl⟩
  | failure reason => exact .inr ⟨nofun, _, rfl⟩
  | crash => exact .inr ⟨nofun, _, rfl⟩

/-- **A record changes nothing**: results and states are those of the executor
itself. -/
theorem runEach_recording_eq (c : Connection σ) (text : String) (calls : List Call) (s : σ)
    (log : List Call) : c.runEach text calls s =
      ((c.recording.runEach text calls (s, log)).1, (c.recording.runEach text calls (s, log)).2.1) := by
  induction calls generalizing s log with
  | nil => rfl
  | cons call calls ih =>
    rcases hexecute : c.executor.execute call.1 call.2 s with ⟨reply, m⟩
    have hrecord := execute_recording log hexecute
    rcases reply.answer_or_error text with ⟨o, rfl⟩ | ⟨-, error, herror⟩
    · rw [runEach_of_answer hexecute, runEach_of_answer hrecord, ih m (log ++ [call])]
    · rw [runEach_of_error hexecute herror, runEach_of_error hrecord herror]

/-- **A batch on record.** It is answered to the end, or it ends with the error
of the first call that is not answered. -/
theorem runEach_recording (c : Connection σ) (text : String) (calls : List Call) (s : σ)
    (log : List Call) :
    (∃ os s', Answers c.executor calls s os s' ∧
      c.recording.runEach text calls (s, log) = (.ok os, s', log ++ calls)) ∨
    ∃ made reply error s', Stops c.executor calls s made reply s' ∧
      reply.toExcept text = .error error ∧
        c.recording.runEach text calls (s, log) = (.error error, s', log ++ made) := by
  induction calls generalizing s log with
  | nil => exact .inl ⟨[], s, .nil, by rw [List.append_nil]; rfl⟩
  | cons call calls ih =>
    rcases hexecute : c.executor.execute call.1 call.2 s with ⟨reply, m⟩
    have hrecord := execute_recording log hexecute
    rcases reply.answer_or_error text with ⟨o, rfl⟩ | ⟨hreply, error, herror⟩
    · rw [runEach_of_answer hrecord]
      rcases ih m (log ++ [call]) with
        ⟨os, s', hos, hrun⟩ | ⟨made, reply, error, s', hstops, herror, hrun⟩
      · refine .inl ⟨o :: os, s', .cons hexecute hos, ?_⟩
        rw [hrun, List.append_assoc]
        rfl
      · refine .inr ⟨call :: made, reply, error, s', hstops.tail hexecute, herror, ?_⟩
        rw [hrun, List.append_assoc]
        rfl
    · exact .inr ⟨[call], reply, error, m, .head hexecute hreply, herror,
        runEach_of_error hrecord herror⟩

/-- An executor that answers all calls stops at none. -/
theorem Answers.not_stops (h : Answers e calls s os s') {m' : σ} :
    ¬ Stops e calls s made reply m' := by
  rintro ⟨before, last, after, os', mid, rfl, -, hbefore, hlast, hreply⟩
  induction hbefore generalizing os with
  | nil =>
    cases h with
    | cons hanswer _ => exact hreply _ (Prod.mk.inj (hlast.symm.trans hanswer)).1
  | cons hfirst _ ih =>
    cases h with
    | cons hanswer hrest =>
      obtain ⟨-, rfl⟩ := Prod.mk.inj (hfirst.symm.trans hanswer)
      exact ih hrest hlast

end Batch

/-! ## Statements that calls leave in a group -/

/-- A statement with the values of its markers. -/
abbrev Request := Statement × List Value

/-- What is wanted back from each kind of statement: rows from the two that read,
and a number of rows from all that write. -/
def Mode.wanted : Statement → Mode
  | .find _ => .query
  | .count _ => .query
  | .insert _ => .update
  | .update _ => .update
  | .delete _ => .update
  | .replace _ => .update
  | .create _ => .update
  | .drop _ => .update
  | .clear _ => .update

theorem Mode.ofStatement_eq_wanted (s : Statement) : Mode.ofStatement s = Mode.wanted s := by
  cases s <;> rfl

/-- What a call adds to a group. -/
def GroupCall.request? : GroupCall → Option Request
  | .add s values | .push s values => some (s, values)
  | .clear => none

/-- The statements that were added after the last removal. -/
def GroupCall.pending (calls : List GroupCall) : List Request :=
  ((calls.reverse.takeWhile fun c => c.request?.isSome).filterMap request?).reverse

theorem GroupCall.pending_concat_of_request {calls : List GroupCall} {call : GroupCall}
    {request : Request} (h : call.request? = some request) :
    pending (calls ++ [call]) = pending calls ++ [request] := by
  simp [pending, h]

theorem GroupCall.pending_concat_clear (calls : List GroupCall) :
    pending (calls ++ [.clear]) = [] := by
  simp [pending, request?]

/-- **The steps of a group** are the statements that are pending, each in the mode
that its kind wants. -/
theorem Group.steps_ofCalls (calls : List GroupCall) : (Group.ofCalls calls).steps =
    (GroupCall.pending calls).map fun r => ⟨r.1, r.2, .wanted r.1⟩ := by
  induction calls using List.reverseRecOn with
  | nil => rfl
  | append_singleton calls call ih =>
    have hstep : Group.ofCalls (calls ++ [call]) = call.apply (Group.ofCalls calls) := by
      rw [Group.ofCalls, List.foldl_append, List.foldl_cons, List.foldl_nil, Group.ofCalls]
    rw [hstep]
    cases call with
    | add s values =>
      rw [GroupCall.pending_concat_of_request rfl, List.map_append, ← ih, List.map_singleton,
        ← Mode.ofStatement_eq_wanted]
      rfl
    | push s values =>
      rw [GroupCall.pending_concat_of_request rfl, List.map_append, ← ih, List.map_singleton,
        ← Mode.ofStatement_eq_wanted]
      rfl
    | clear =>
      rw [GroupCall.pending_concat_clear]
      rfl

/-! ## Groups -/

section Group

variable {l : Language} {c : Connection σ} {requests : List Request} {commands : List Command}
  {calls : List GroupCall} {made : List Call} {error : QueryError} {s s' : σ}
  {result : Except QueryError (List Outcome)}

/-- These are the commands of the statements. -/
def Compiled (l : Language) (requests : List Request) (commands : List Command) : Prop :=
  List.Forall₂ (fun r command => l.compile r.1 r.2 = .ok command) requests commands

/-- The first statement without a command has this error. -/
def FirstError (l : Language) (requests : List Request) (error : QueryError) : Prop :=
  ∃ before r after, requests = before ++ r :: after ∧
    (∀ r ∈ before, ∃ command, l.compile r.1 r.2 = .ok command) ∧ l.compile r.1 r.2 = .error error

/-- The calls of the commands, each in the mode that the kind of its statement
wants. -/
def callsOf (requests : List Request) (commands : List Command) : List Call :=
  commands.zip (requests.map fun r => .wanted r.1)

/-- How statements are executed together: what comes of it, the state after it
and the calls that are made. -/
inductive RunsTogether (c : Connection σ) (requests : List Request) (s : σ) :
    Except QueryError (List Outcome) → σ → List Call → Prop
  /-- A statement has no command, and no call is made. -/
  | uncompiled {error : QueryError} :
      FirstError c.language requests error → RunsTogether c requests s (.error error) s []
  /-- All calls are answered. -/
  | answered {commands : List Command} {os : List Outcome} {s' : σ} :
      Compiled c.language requests commands →
      Answers c.executor (callsOf requests commands) s os s' →
        RunsTogether c requests s (.ok os) s' (callsOf requests commands)
  /-- A call fails, and the error names all commands. -/
  | failed {commands : List Command} {made : List Call} {reason : String} {s' : σ} :
      Compiled c.language requests commands →
      Stops c.executor (callsOf requests commands) s made (.failure reason) s' →
        RunsTogether c requests s
          (.error (.execution ("; ".intercalate (commands.map Command.text)) reason)) s' made
  /-- The executor breaks off. -/
  | crashed {commands : List Command} {made : List Call} {s' : σ} :
      Compiled c.language requests commands →
      Stops c.executor (callsOf requests commands) s made .crash s' →
        RunsTogether c requests s (.error .task) s' made

theorem compiled_iff : Compiled l requests commands ↔
    requests.mapM (fun r => l.compile r.1 r.2) = .ok commands := Run.outcome_mapM_eq_ok.symm

/-- Statements have one list of commands. -/
theorem Compiled.unique {commands' : List Command} (h : Compiled l requests commands)
    (h' : Compiled l requests commands') : commands = commands' :=
  Except.ok.inj ((compiled_iff.1 h).symm.trans (compiled_iff.1 h'))

/-- They have none if one of them has an error. -/
theorem FirstError.not_compiled (h : FirstError l requests error) :
    ¬ Compiled l requests commands := by
  obtain ⟨before, r, after, rfl, -, herror⟩ := h
  intro hcompiled
  rw [compiled_iff, List.mapM_append, Run.outcome_bind_eq_ok] at hcompiled
  obtain ⟨_, -, hrest⟩ := hcompiled
  obtain ⟨_, hrest, -⟩ := Run.outcome_bind_eq_ok.1 hrest
  rw [List.mapM_cons, Run.outcome_bind_eq_ok] at hrest
  obtain ⟨command, hcommand, -⟩ := hrest
  rw [herror] at hcommand
  cases hcommand

theorem Compiled.length_callsOf (h : Compiled l requests commands) :
    (callsOf requests commands).length = requests.length := by
  have hlength : requests.length = commands.length := List.Forall₂.length_eq h
  rw [callsOf, List.length_zip, List.length_map, hlength, Nat.min_self]

theorem Compiled.map_fst_callsOf (h : Compiled l requests commands) :
    (callsOf requests commands).map Prod.fst = commands := by
  have hlength : requests.length = commands.length := List.Forall₂.length_eq h
  refine List.map_fst_zip ?_
  rw [List.length_map]
  omega

namespace RunsTogether

/-- There is one outcome for each statement. -/
theorem length_eq {os : List Outcome} (h : RunsTogether c requests s (.ok os) s' made) :
    os.length = requests.length := by
  cases h with
  | answered hcompiled hos => exact hos.length_eq.trans hcompiled.length_callsOf

/-- There are outcomes if the executor answers all commands, and only then. -/
theorem ok_iff (h : RunsTogether c requests s result s' made) : (∃ os, result = .ok os) ↔
    ∃ commands, Compiled c.language requests commands ∧
      ∃ os s', Answers c.executor (callsOf requests commands) s os s' := by
  -- a batch that stops at a call is not answered, whatever its commands are
  have hstops : ∀ {commands reply m}, Compiled c.language requests commands →
      Stops c.executor (callsOf requests commands) s made reply m →
      ¬ ∃ commands, Compiled c.language requests commands ∧
        ∃ os s', Answers c.executor (callsOf requests commands) s os s' := by
    rintro commands reply m hcompiled hstops ⟨other, hother, os, s'', hos⟩
    obtain rfl := hcompiled.unique hother
    exact hos.not_stops hstops
  cases h with
  | uncompiled hfirst =>
    exact iff_of_false nofun fun ⟨_, hcompiled, _⟩ => hfirst.not_compiled hcompiled
  | answered hcompiled hos => exact iff_of_true ⟨_, rfl⟩ ⟨_, hcompiled, _, _, hos⟩
  | failed hcompiled hfail => exact iff_of_false nofun (hstops hcompiled hfail)
  | crashed hcompiled hcrash => exact iff_of_false nofun (hstops hcompiled hcrash)

/-- Without statements nothing happens. -/
theorem of_nil (h : RunsTogether c [] s result s' made) : result = .ok [] ∧ s' = s ∧ made = [] := by
  have hcalls : ∀ commands, callsOf [] commands = [] := fun _ => List.zip_nil_right
  cases h with
  | uncompiled hfirst =>
    obtain ⟨before, r, after, hnone, -⟩ := hfirst
    simp at hnone
  | answered _ hos =>
    rw [hcalls] at hos ⊢
    cases hos
    exact ⟨rfl, rfl, rfl⟩
  | failed _ hstops | crashed _ hstops =>
    obtain ⟨before, call, after, -, -, hnone, -⟩ := hstops
    simp [hcalls] at hnone

end RunsTogether

theorem compile_ofCalls (l : Language) (calls : List GroupCall) :
    (Group.ofCalls calls).compile l =
      (GroupCall.pending calls).mapM fun r => l.compile r.1 r.2 := by
  rw [Group.compile, Group.steps_ofCalls, List.mapM_map]
  rfl

theorem execute_of_error (h : (Group.ofCalls calls).compile c.language = .error error) :
    (Group.ofCalls calls).execute c s = (.error error, s) := by
  rw [Group.execute, h]

/-- Once all statements have commands, the group is a batch. -/
theorem execute_of_compiled (h : Compiled c.language (GroupCall.pending calls) commands) :
    (Group.ofCalls calls).execute c s = c.runEach ("; ".intercalate (commands.map Command.text))
      (callsOf (GroupCall.pending calls) commands) s := by
  have hcompile : (Group.ofCalls calls).compile c.language = .ok commands := by
    rw [compile_ofCalls, compiled_iff.1 h]
  have hmodes : (Group.ofCalls calls).steps.map (·.mode) =
      (GroupCall.pending calls).map fun r => .wanted r.1 := by
    rw [Group.steps_ofCalls, List.map_map]
    rfl
  have htext : Connection.groupText (callsOf (GroupCall.pending calls) commands) =
      "; ".intercalate (commands.map Command.text) := by
    conv_rhs => rw [← h.map_fst_callsOf, List.map_map]
    rfl
  rw [Group.execute, hcompile]
  dsimp only
  rw [hmodes, Connection.runGroup, ← htext]
  rfl

/-- **A group on record** runs its statements together. -/
theorem execute_runsTogether (c : Connection σ) (calls : List GroupCall) (s : σ) :
    ∃ result s' made, (Group.ofCalls calls).execute c.recording (s, []) = (result, s', made) ∧
      (Group.ofCalls calls).execute c s = (result, s') ∧
      RunsTogether c (GroupCall.pending calls) s result s' made := by
  cases hcompile : (Group.ofCalls calls).compile c.language with
  | error error =>
    have hfirst : FirstError c.language (GroupCall.pending calls) error := by
      rw [compile_ofCalls] at hcompile
      exact Run.first_of_outcome_mapM_eq_error hcompile
    exact ⟨.error error, s, [], execute_of_error hcompile, execute_of_error hcompile,
      .uncompiled hfirst⟩
  | ok commands =>
    have hcompiled : Compiled c.language (GroupCall.pending calls) commands := by
      rw [compiled_iff, ← compile_ofCalls, hcompile]
    have hrecord := runEach_recording c ("; ".intercalate (commands.map Command.text))
      (callsOf (GroupCall.pending calls) commands) s []
    rw [execute_of_compiled (c := c.recording) hcompiled, execute_of_compiled hcompiled,
      runEach_recording_eq c _ _ s []]
    rcases hrecord with ⟨os, s', hos, hrun⟩ | ⟨made, reply, error, s', hstops, herror, hrun⟩
    · exact ⟨.ok os, s', _, hrun, by rw [hrun], .answered hcompiled hos⟩
    · refine ⟨.error error, s', made, hrun, by rw [hrun], ?_⟩
      cases reply with
      | answer o => cases herror
      | failure reason =>
        rw [← Except.error.inj herror]
        exact .failed hcompiled hstops
      | crash =>
        rw [← Except.error.inj herror]
        exact .crashed hcompiled hstops

/-- An executor of one collection of documents, whose state is their number. It
answers a pipeline where rows are wanted and a removal where a number is, and it
refuses all else. -/
def oneCollection : Executor ℕ where
  execute command mode size :=
    match command, mode with
    | .document (.aggregate _ _), .query =>
      (.answer (.ofRows [.ofList [(countColumn, .int (.ofNat size))]]), size)
    | .document (.delete _ _), .update => (.answer (.ofAffected (.ofNat size)), 0)
    | _, _ => (.failure "refused", size)

example : ((Group.ofCalls [.add (.count ⟨⟨"shop", "users"⟩, []⟩) [], .clear,
      .push (.clear ⟨"shop", "users"⟩) [], .add (.drop (.collection ⟨"shop", "users"⟩)) []]).execute
    ⟨"main", .sql .mysql, oneCollection⟩ 3) =
      (.error (.execution "DELETE FROM `shop`.`users`; DROP TABLE `shop`.`users`" "refused"), 3) := by
  rfl

end Group

end Session

end QueryLayer
