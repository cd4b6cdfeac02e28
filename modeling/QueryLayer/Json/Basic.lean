/-!
# JSON values

`Json` keeps the members of an object in the order they were written, since
that order is part of every text this library prints. Integers stand apart from
floats and have any size.

`broken` stands for text that is well formed and yet stands for no value: a
string with half of a surrogate pair, a number past the range of doubles, a
container nested too deep. Readers skip it where the member is of no interest
and refuse it everywhere else.
-/

namespace QueryLayer

/-- A JSON value. -/
inductive Json where
  | null
  | bool (b : Bool)
  | int (n : Int)
  | float (x : Float)
  | string (s : String)
  | array (items : List Json)
  /-- The members in the order in which they were written. -/
  | object (members : List (String × Json))
  /-- Well-formed text that stands for no value. -/
  | broken
deriving Inhabited

namespace Json

/-- The object of the members that are present. -/
def record (members : List (String × Option Json)) : Json :=
  .object (members.filterMap fun m => m.2.map (m.1, ·))

mutual

/-- How many arrays and objects the value nests, itself included. -/
def depth : Json → Nat
  | .array items => depthItems items + 1
  | .object members => depthMembers members + 1
  | _ => 0

/-- The greatest depth among the items. -/
def depthItems : List Json → Nat
  | [] => 0
  | j :: rest => max (depth j) (depthItems rest)

/-- The greatest depth among the members. -/
def depthMembers : List (String × Json) → Nat
  | [] => 0
  | (_, j) :: rest => max (depth j) (depthMembers rest)

end

mutual

/-- Every part of the value stands for a value. -/
def isSound : Json → Bool
  | .broken => false
  | .array items => areSoundItems items
  | .object members => areSoundMembers members
  | _ => true

/-- Every item is sound. -/
def areSoundItems : List Json → Bool
  | [] => true
  | j :: rest => isSound j && areSoundItems rest

/-- Every member is sound. -/
def areSoundMembers : List (String × Json) → Bool
  | [] => true
  | (_, j) :: rest => isSound j && areSoundMembers rest

end

end Json

end QueryLayer
