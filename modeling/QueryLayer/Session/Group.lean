import QueryLayer.Session.Executor

/-!
# Groups of statements

All statements of a group are compiled before the first is executed, so that a
statement that cannot be compiled leaves the database as it was.
-/

namespace QueryLayer

namespace Session

/-- A statement of a group, with its values and its mode. -/
structure GroupStep where
  /-- The statement. -/
  statement : Statement
  /-- The values of its markers. -/
  values : List Value
  /-- What is wanted back. -/
  mode : Mode

/-- Statements that are executed together. -/
structure Group where
  /-- The statements in order. -/
  steps : List GroupStep

namespace Group

variable {σ : Type}

/-- The group without statements. -/
def empty : Group := ⟨[]⟩

/-- The group with one more statement, in the mode of its kind. -/
def add (g : Group) (s : Statement) (values : List Value) : Group :=
  ⟨g.steps ++ [⟨s, values, .ofStatement s⟩]⟩

/-- Adds a statement to a group that stays in its place. -/
def push (g : Group) (s : Statement) (values : List Value) : Group := g.add s values

/-- The group with all statements removed. -/
def clear (_ : Group) : Group := empty

/-- The number of statements. -/
def length (g : Group) : Nat := g.steps.length

/-- There are no statements. -/
def isEmpty (g : Group) : Bool := g.steps.isEmpty

/-- The commands of the statements, or the error of the first that has none. -/
def compile (l : Language) (g : Group) : Except QueryError (List Command) :=
  g.steps.mapM fun s => l.compile s.statement s.values

/-- Compiles all statements and executes them in order. -/
def execute (c : Connection σ) (g : Group) (state : σ) : Except QueryError (List Outcome) × σ :=
  match g.compile c.language with
  | .error e => (.error e, state)
  | .ok commands => c.runGroup (commands.zip (g.steps.map (·.mode))) state

end Group

/-- A call on a group. -/
inductive GroupCall where
  | add (s : Statement) (values : List Value)
  | push (s : Statement) (values : List Value)
  | clear

/-- The group after a call. -/
def GroupCall.apply : GroupCall → Group → Group
  | .add s values, g => g.add s values
  | .push s values, g => g.push s values
  | .clear, g => g.clear

/-- The group that calls build. -/
def Group.ofCalls (calls : List GroupCall) : Group := calls.foldl (fun g c => c.apply g) .empty

end Session

end QueryLayer
