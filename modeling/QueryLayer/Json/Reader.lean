import QueryLayer.Json.Lexer

/-!
# From tokens to a value

The reader takes one token at a time and keeps the open containers on a stack,
so that its depth is the length of the stack. A container nested deeper than
the limit is `broken`.
-/

namespace QueryLayer

namespace Json

namespace Reader

/-- The members read so far, last first; nothing when a key was broken. -/
abbrev Members := Option (List (String × Json))

/-- A container that waits for the value of an item or a member. -/
inductive Frame where
  | array (done : List Json)
  | object (done : Members) (key : Option String)

/-- What may come next. -/
inductive State where
  /-- A value must come. -/
  | value (stack : List Frame)
  /-- An array was just opened: a value, or its end. -/
  | firstItem (stack : List Frame)
  /-- A comma, or the end of the array. -/
  | afterItem (done : List Json) (stack : List Frame)
  /-- An object was just opened: a key, or its end. -/
  | firstKey (stack : List Frame)
  /-- A key must come. -/
  | key (done : Members) (stack : List Frame)
  /-- A colon must come. -/
  | colon (done : Members) (key : Option String) (stack : List Frame)
  /-- A comma, or the end of the object. -/
  | afterMember (done : Members) (stack : List Frame)
  /-- The value is complete and nothing may come. -/
  | done (value : Json)

/-- The members with one more at the front. -/
def addMember (done : Members) (key : Option String) (j : Json) : Members :=
  match done, key with
  | some ms, some k => some ((k, j) :: ms)
  | _, _ => none

/-- The object of its members. -/
def closeMembers : Members → Json
  | some ms => .object ms.reverse
  | none => .broken

/-- Hands a complete value to the innermost open container. -/
def deliver (j : Json) : List Frame → State
  | [] => .done j
  | .array done :: stack => .afterItem (j :: done) stack
  | .object done key :: stack => .afterMember (addMember done key j) stack

/-- Hands over a container that has just been closed, unless it was too deep. -/
def close (limit : Nat) (j : Json) (stack : List Frame) : State :=
  deliver (if stack.length < limit then j else .broken) stack

/-- A token that starts a value. -/
def beginValue (t : Token) (stack : List Frame) : Option State :=
  match t with
  | .openArray => some (.firstItem stack)
  | .openObject => some (.firstKey stack)
  | .null => some (deliver .null stack)
  | .bool b => some (deliver (.bool b) stack)
  | .int n => some (deliver (.int n) stack)
  | .float x => some (deliver (.float x) stack)
  | .text s => some (deliver (.string s) stack)
  | .brokenText | .outOfRange => some (deliver .broken stack)
  | _ => none

/-- A token that is the key of a member. -/
def readKey (done : Members) (stack : List Frame) : Token → Option State
  | .text k => some (.colon done (some k) stack)
  | .brokenText => some (.colon done none stack)
  | _ => none

/-- Takes one token. -/
def step (limit : Nat) : State → Token → Option State
  | .value stack, t => beginValue t stack
  | .firstItem stack, .closeArray => some (close limit (.array []) stack)
  | .firstItem stack, t => beginValue t (.array [] :: stack)
  | .afterItem done stack, .comma => some (.value (.array done :: stack))
  | .afterItem done stack, .closeArray => some (close limit (.array done.reverse) stack)
  | .firstKey stack, .closeObject => some (close limit (.object []) stack)
  | .firstKey stack, t => readKey (some []) stack t
  | .key done stack, t => readKey done stack t
  | .colon done key stack, .colon => some (.value (.object done key :: stack))
  | .afterMember done stack, .comma => some (.key done stack)
  | .afterMember done stack, .closeObject => some (close limit (closeMembers done) stack)
  | _, _ => none

/-- The value at the end of the tokens. -/
def State.finish : State → Option Json
  | .done j => some j
  | _ => none

/-- The value of a list of tokens. -/
def run (limit : Nat) (ts : List Token) : Option Json :=
  (ts.foldlM (step limit) (.value [])).bind State.finish

end Reader

/-- The value of a text, whose containers may nest as deep as the limit. -/
def read (limit : Nat) (text : String) : Option Json :=
  (Lexer.run text.toList).bind (Reader.run limit)

/-- How deep containers may nest in the texts this library accepts. -/
def depthLimit : Nat := 127

end Json

end QueryLayer
