import QueryLayer.Language
import QueryLayer.Row

/-!
# Executors

The library talks to no database. An executor is a machine that answers one
command at a time and moves to its next state. `Connection.run` compiles a
statement and hands it over; a statement that cannot be compiled never reaches
the executor.
-/

namespace QueryLayer

namespace Session

/-- What is wanted back from a command. -/
inductive Mode where
  /-- Rows. -/
  | query
  /-- The number of affected rows. -/
  | update
  /-- The number of affected rows, and a row of these columns for each inserted
  row. -/
  | keys (columns : List String)
deriving DecidableEq, Repr

namespace Mode

/-- The mode of a statement. -/
def ofStatement : Statement → Mode
  | .find _ | .count _ => .query
  | _ => .update

end Mode

/-- What an executor answers. -/
inductive Reply where
  | answer (o : Outcome)
  /-- The command failed for a reason. -/
  | failure (reason : String)
  /-- The executor broke off. -/
  | crash

/-- A machine that answers commands. -/
structure Executor (σ : Type) where
  /-- The answer to a command, and the state after it. -/
  execute : Command → Mode → σ → Reply × σ

/-- The error of a reply to a command of this text. -/
def Reply.toExcept (text : String) : Reply → Except QueryError Outcome
  | .answer o => .ok o
  | .failure reason => .error (.execution text reason)
  | .crash => .error .task

/-- A language together with the executor for its commands. -/
structure Connection (σ : Type) where
  /-- The name of the connection. -/
  name : String
  /-- The language of its statements. -/
  language : Language
  /-- Its executor. -/
  executor : Executor σ

namespace Connection

variable {σ : Type}

/-- Compiles a statement and executes it. -/
def run (c : Connection σ) (s : Statement) (values : List Value) (mode : Mode) (state : σ) :
    Except QueryError Outcome × σ :=
  match c.language.compile s values with
  | .error e => (.error e, state)
  | .ok command =>
    let (reply, state) := c.executor.execute command mode state
    (reply.toExcept command.text, state)

/-- Executes a statement that needs no values, in the mode of its kind. -/
def runStatement (c : Connection σ) (s : Statement) (state : σ) : Except QueryError Outcome × σ :=
  c.run s [] (.ofStatement s) state

/-- Executes commands up to the first that is not answered. The text stands in
its error. -/
def runEach (c : Connection σ) (text : String) :
    List (Command × Mode) → σ → Except QueryError (List Outcome) × σ
  | [], state => (.ok [], state)
  | (command, mode) :: rest, state =>
    let (reply, state) := c.executor.execute command mode state
    match reply.toExcept text with
    | .error e => (.error e, state)
    | .ok o =>
      let (os, state) := runEach c text rest state
      (os.map (o :: ·), state)

/-- The text of several commands. -/
def groupText (commands : List (Command × Mode)) : String :=
  "; ".intercalate (commands.map (·.1.text))

/-- Executes commands as one batch. An error names all of them. -/
def runGroup (c : Connection σ) (commands : List (Command × Mode)) (state : σ) :
    Except QueryError (List Outcome) × σ :=
  c.runEach (groupText commands) commands state

end Connection

/-- The number of rows that a count returned. A count of nothing may return no
row at all. -/
def sizeOf (o : Outcome) : UInt64 :=
  match o.first?.bind (·.getInt? countColumn) with
  | some n => if n < 0 then 0 else n.toUInt64
  | none => 0

end Session

end QueryLayer
