import QueryLayer.Sql.Clause

/-!
# One traversal that writes every clause

The clauses of a search can be written while its entries are met: each clause has
a buffer of its own, question marks and values are added on their own, and flags
say whether `WHERE` stands in the filter and whether a negation is in force. No
plan is made in between, and `Entry.isPredicate` is asked before a bracket is opened
for what the entries inside of it will write.
-/

namespace QueryLayer

namespace Sql

/-- The buffers and flags of a traversal, and the values left to it. -/
structure Traversal where
  /-- The joins. -/
  join : Fragment
  /-- The filter. -/
  filter : Fragment
  /-- The values of the filter. -/
  filterParams : List Value
  /-- The group keys. -/
  groupBy : Fragment
  /-- The sort keys. -/
  orderBy : Fragment
  /-- The window of rows. -/
  window : Fragment
  /-- The values of the window. -/
  windowParams : List Value
  /-- `WHERE` has been written. -/
  opened : Bool
  /-- A negation is in force. -/
  negate : Bool
  /-- A window has been met. -/
  hasLimit : Bool
  /-- The runtime values. -/
  supply : Supply

namespace Traversal

/-- The start of a traversal. -/
def start (values : List Value) : Traversal :=
  ⟨[], [], [], [], [], [], [], false, false, false, .ofList values⟩

/-- A step of the traversal. One that fails leaves what it has written. -/
abbrev Step := EStateM QueryError Traversal

/-! ## Steps -/

/-- The mark of a value. -/
def mark : Piece := .text Dialect.placeholder

/-- Adds to the filter. -/
def write (f : Fragment) : Step Unit := modify fun t => { t with filter := t.filter ++ f }

/-- Binds values of the filter. -/
def bindAll (vs : List Value) : Step Unit :=
  modify fun t => { t with filterParams := t.filterParams ++ vs }

/-- The value of an operand. -/
def resolve (o : Operand) : Step Value := fun t =>
  match o.resolve t.supply with
  | .ok (v, s) => .ok v { t with supply := s }
  | .error e => .error e t

/-- What stands before an operand: nothing where it is the first one of a bracket,
`WHERE` where it is the first one of all, and else the word of its connector. -/
def lead (connector : OperationKind) (first opened : Bool) : Fragment :=
  if first then []
  else if opened then [.text (" " ++ connector.keyword ++ " ")]
  else [.text " WHERE "]

/-- The traversal with what stands before an operand. -/
def connected (connector : OperationKind) (first : Bool) (t : Traversal) : Traversal :=
  { t with
    filter := t.filter ++ lead connector first t.opened
    opened := t.opened || !first }

/-- Writes what stands before an operand. -/
def connect (connector : OperationKind) (first : Bool) : Step Unit :=
  modify (connected connector first)

/-- A test with one value, which is taken when the text is written. -/
def compare (f : Fragment) (o : Operand) : Step Unit := do
  write f
  bindAll [← resolve o]

/-- A condition. -/
def condition (statement : String) (c : Condition) : Step Unit := do
  let not := negation (← get).negate
  match c.kind with
  | .equals => compare (not ++ target c.target ++ [.text "=", mark]) c.value
  | .like => compare (not ++ target c.target ++ [.text " LIKE ", mark]) c.value
  | .lower => compare (not ++ target c.target ++ [.text "<", mark]) c.value
  | .higher => compare (not ++ target c.target ++ [.text ">", mark]) c.value
  | .null => write (target c.target ++ [.text " IS "] ++ not ++ [.text "NULL"])
  | .oneOf => do
    let vs := (← resolve c.value).toItems
    if vs.isEmpty then throw (.emptyInList c.target.field.display)
    else do
      write (not ++ target c.target ++ [.text " IN ("] ++
        Fragment.join "," (List.replicate vs.length [mark]) ++ [.text ")"])
      bindAll vs
  | .between =>
    match c.upperBound with
    | none => throw (.unexpectedEntry .unboundedRange statement)
    | some upper => do
      write (not ++ target c.target ++ [.text " BETWEEN ", mark, .text " AND ", mark])
      let low ← resolve c.value
      let high ← resolve upper
      bindAll [low, high]

/-- A buffer and what comes behind: the opening where the buffer is empty, and else
the mark that keeps two apart. -/
def chain (opening : Fragment) (separator : String) (buffer f : Fragment) : Fragment :=
  buffer ++ (if buffer.isEmpty then opening else [.text separator]) ++ f

/-- A join. -/
def addJoin (d : Dialect) (j : Join) : Step Unit :=
  if j.joinType = .full ∧ ¬ d.fullJoin then throw (.unsupported d.name (.joinType .full))
  else modify fun t => { t with join := chain [] " " t.join (Sql.join d j) }

/-- A sort key. -/
def addSortKey (k : SortKey) : Step Unit :=
  modify fun t => { t with orderBy := chain [.text " ORDER BY "] "," t.orderBy (sortKey k) }

/-- A group key. -/
def addGroupKey (g : Target) : Step Unit :=
  modify fun t => { t with groupBy := chain [.text " GROUP BY "] "," t.groupBy (target g) }

/-- The window of rows, of which there may be one. -/
def addWindow (d : Dialect) (w : Window) : Step Unit := fun t =>
  if t.hasLimit then .error .duplicateLimit t
  else
    match d.limitStyle with
    | .limitOffset => .ok () { t with
        hasLimit := true
        window := t.window ++ [.text " LIMIT ", mark, .text " OFFSET ", mark]
        windowParams := t.windowParams ++ [rowCount w.limit, rowCount w.offset] }
    | .offsetFetch => .ok () { t with
        hasLimit := true
        window := t.window ++
          [.text " OFFSET ", mark, .text " ROWS FETCH NEXT ", mark, .text " ROWS ONLY"]
        windowParams := t.windowParams ++ [rowCount w.offset, rowCount w.limit] }

variable {α β : Type}

/-- Takes a step under the other negation. The flag is put back, also behind an
error. -/
def negated (x : Step α) : Step α := do
  let negate := (← get).negate
  modify fun t => { t with negate := !negate }
  try x finally modify fun t => { t with negate := negate }

/-- Opens a bracket, inside of which no negation is in force. -/
def openBracket (t : Traversal) : Traversal :=
  { t with filter := t.filter ++ negation t.negate ++ [.text "("], negate := false }

/-- Closes a bracket and puts back the flag of the negation. -/
def closeBracket (negate : Bool) (t : Traversal) : Traversal :=
  { t with filter := t.filter ++ [.text ")"], negate := negate }

/-- Takes a step inside a bracket, which is closed also behind an error. -/
def bracketed (x : Step α) : Step Bool := do
  let negate := (← get).negate
  modify openBracket
  try discard x finally modify (closeBracket negate)
  return true

mutual

/-- Renders an entry among the operands of a connector, and says whether it wrote a
predicate. -/
def entry (d : Dialect) (statement : String) (connector : OperationKind) (first : Bool) :
    Entry → Step Bool
  | .condition c => do
    connect connector first
    condition statement c
    return true
  | .operation kind es =>
    match kind with
    | .not => negated (render d statement connector first es)
    | kind =>
      -- without a predicate there is nothing to put in brackets, and clauses are still met
      if Entry.anyPredicate es then do
        connect connector first
        bracketed (render d statement kind true es)
      else render d statement kind true es
  | .join j => do
    addJoin d j
    return false
  | .limit w => do
    addWindow d w
    return false
  | .orderBy k => do
    addSortKey k
    return false
  | .groupBy g => do
    addGroupKey g
    return false
  | .set _ => throw (.unexpectedEntry .assignment statement)

/-- Renders entries as the operands of a connector, of which one is the first. -/
def render (d : Dialect) (statement : String) (connector : OperationKind) (first : Bool) :
    List Entry → Step Bool
  | [] => return false
  | e :: es => do
    let written ← entry d statement connector first e
    let more ← render d statement connector (first && !written) es
    return written || more

end

/-- Renders an entry at the top level. -/
def push (d : Dialect) (statement : String) (e : Entry) : Step Unit :=
  discard (entry d statement .and false e)

/-- The clauses in their order. -/
def buffers (t : Traversal) : Fragment := t.join ++ t.filter ++ t.groupBy ++ t.orderBy ++ t.window

/-- The values of the clauses. -/
def params (t : Traversal) : List Value := t.filterParams ++ t.windowParams

/-- The text of the clauses and their values. A window that is written after the
sort keys needs some. -/
def finish (d : Dialect) (t : Traversal) : String × List Value :=
  let orderBy : Fragment :=
    if t.hasLimit ∧ t.orderBy.isEmpty ∧ d.limitStyle = .offsetFetch then
      [.text " ORDER BY (SELECT NULL)"]
    else t.orderBy
  (d.write { t with orderBy := orderBy }.buffers, t.params)

/-- The clauses of a list of entries and their values. -/
def clauses (d : Dialect) (statement : String) (es : List Entry) (values : List Value) :
    Except QueryError (String × List Value) :=
  match (forM es (push d statement)).run (start values) with
  | .ok _ t => .ok (t.finish d)
  | .error e _ => .error e

end Traversal

end Sql

end QueryLayer
