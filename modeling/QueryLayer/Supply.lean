import QueryLayer.Error

/-!
# The supply of runtime values

The markers of a statement take the runtime values in order. A marker that
finds none left reports how many were taken before it; values that no marker
takes are of no consequence.
-/

namespace QueryLayer

/-- The runtime values that are left, and how many have been taken. -/
structure Supply where
  /-- The values left. -/
  remaining : List Value
  /-- The number of values taken. -/
  taken : Nat
deriving Inhabited

namespace Supply

/-- A supply from which nothing has been taken. -/
def ofList (values : List Value) : Supply := ⟨values, 0⟩

/-- Takes the next value. -/
def take (s : Supply) : Except QueryError (Value × Supply) :=
  match s.remaining with
  | [] => .error (.missingPreparedValue s.taken)
  | v :: rest => .ok (v, ⟨rest, s.taken + 1⟩)

end Supply

namespace Operand

/-- The value of an operand: a literal is its own, and a marker takes the next
value of the supply. -/
def resolve (o : Operand) (s : Supply) : Except QueryError (Value × Supply) :=
  match o with
  | .literal v => .ok (v, s)
  | .prepared => s.take

@[simp] theorem resolve_literal (v : Value) (s : Supply) :
    (literal v).resolve s = .ok (v, s) := rfl

@[simp] theorem resolve_prepared (s : Supply) : prepared.resolve s = s.take := rfl

end Operand

end QueryLayer
