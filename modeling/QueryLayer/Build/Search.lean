import QueryLayer.Build.Saturating
import QueryLayer.Error
import QueryLayer.Statement

/-!
# Building searches

Each call appends to the entries of a search, or refuses and leaves the search
alone. Misuse is refused by the call that commits it: a second limit at any
depth, a window without rows, a page before the first, an equality without a
join.
-/

namespace QueryLayer

namespace Search

/-- The search without entries. -/
def on (c : CollectionRef) : Search := ⟨c, []⟩

/-- The search with one more entry. -/
def push (s : Search) (e : Entry) : Search := { s with entries := s.entries ++ [e] }

/-- A condition without an upper bound. -/
def simpleCondition (kind : ConditionKind) (t : Target) (v : Operand) : Entry :=
  .condition ⟨kind, t, v, none⟩

/-- Adds a condition. -/
def condition (s : Search) (kind : ConditionKind) (t : Target) (v : Operand) : Search :=
  s.push (simpleCondition kind t v)

/-- Adds a negated condition. -/
def conditionNot (s : Search) (kind : ConditionKind) (t : Target) (v : Operand) : Search :=
  s.push (.operation .not [simpleCondition kind t v])

/-- The field lies between two values, both included. -/
def between (s : Search) (t : Target) (low high : Operand) : Search :=
  s.push (.condition ⟨.between, t, low, some high⟩)

/-- The search holds a limit at some depth. -/
def isLimited (s : Search) : Bool := s.entries.any Entry.containsLimit

/-- Adds an operator over entries. Only one of the two may hold a limit. -/
def operation (s : Search) (kind : OperationKind) (es : List Entry) : Except QueryError Search :=
  if es.any Entry.containsLimit && s.isLimited then .error .duplicateLimit
  else .ok (s.push (.operation kind es))

/-- Takes a window of rows. -/
def window (s : Search) (w : Window) : Except QueryError Search :=
  if w.limit = 0 then .error (.invalidLimit w)
  else if s.isLimited then .error .duplicateLimit
  else .ok (s.push (.limit w))

end Search

namespace Window

open Saturating

/-- The window of the rows from one number to another, both included and
counted from one. -/
def ofRows (first last : UInt64) : Window := ⟨sub (add last 1) first, sub first 1⟩

/-- The window of a page of so many rows, counted from one. -/
def ofPage (page size : UInt64) : Window :=
  ofRows (add (mul (sub page 1) size) 1) (mul page size)

end Window

namespace Search

/-- Takes the rows from one number to another. -/
def index (s : Search) (first last : UInt64) : Except QueryError Search :=
  s.window (.ofRows first last)

/-- Takes a page of rows. -/
def page (s : Search) (page size : UInt64) : Except QueryError Search :=
  if page = 0 then .error (.invalidPage page) else s.window (.ofPage page size)

/-- Adds a sort key. -/
def orderBy (s : Search) (t : Target) (o : SortOrder) : Search := s.push (.orderBy ⟨t, o⟩)

/-- Adds a group key. -/
def groupBy (s : Search) (t : Target) : Search := s.push (.groupBy t)

/-- Joins a collection, so far without equalities. -/
def join (s : Search) (c : CollectionRef) (t : JoinType) : Search := s.push (.join ⟨c, t, []⟩)

/-- Adds an equality to the join that is the last entry. The left column is of
the searched collection, and the right one of the joined collection unless
another is given. -/
def joinOn (s : Search) (column1 : String) (collection2 : Option CollectionRef)
    (column2 : String) : Except QueryError Search :=
  match s.entries.getLast? with
  | some (.join j) =>
    let pair : JoinPair := ⟨s.collection, column1, some (collection2.getD j.collection), column2⟩
    .ok { s with entries := s.entries.dropLast ++ [.join { j with pairs := j.pairs ++ [pair] }] }
  | _ => .error .onWithoutJoin

/-- Adds an assignment. -/
def assign (s : Search) (field : String) (v : Operand) (op : Option Arithmetic) : Search :=
  s.push (.set ⟨FieldRef.parse field, v, op⟩)

end Search

namespace Find

/-- The find without entries. -/
def on (c : CollectionRef) : Find := { collection := c, entries := [], projection := [] }

/-- Adds a column to the result. -/
def get (s : Find) (t : Target) (label : Option String) : Find :=
  { s with projection := s.projection ++ [⟨t, label⟩] }

end Find

end QueryLayer
