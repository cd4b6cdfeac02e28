import QueryLayer.Json.Shape
import QueryLayer.Value

/-!
# Values in JSON

Values carry no tag: null, truth values, numbers, texts and lists are their own
JSON, and bytes are a list of integers. Reading therefore gives back every
value but bytes, which come back as the list they were written as. An integer
beyond 64 signed bits is read as a float.
-/

namespace QueryLayer

namespace Value

mutual

/-- The JSON of a value. -/
def toJson : Value → Json
  | .null => .null
  | .bool b => .bool b
  | .int n => .int n.toInt
  | .float x => if x.isNaN || x.isInf then .null else .float x
  | .text s => .string s
  | .list vs => .array (toJsonAll vs)
  | .blob bytes => .array (bytes.map fun b => .int b.toNat)

/-- The JSON of several values. -/
def toJsonAll : List Value → List Json
  | [] => []
  | v :: vs => toJson v :: toJsonAll vs

end

/-- An integer literal as a value. -/
def ofInt (n : Int) : Value :=
  if Int64.minValue.toInt ≤ n ∧ n ≤ Int64.maxValue.toInt then .int (Int64.ofInt n)
  else .float n.toNat.toUInt64.toFloat

mutual

/-- The value of a JSON value. Objects are no values. -/
def ofJson : Json → Option Value
  | .null => some .null
  | .bool b => some (.bool b)
  | .int n => some (ofInt n)
  | .float x => some (.float x)
  | .string s => some (.text s)
  | .array js => (ofJsonAll js).map .list
  | .object _ | .broken => none

/-- The values of several JSON values. -/
def ofJsonAll : List Json → Option (List Value)
  | [] => some []
  | j :: js => do return (← ofJson j) :: (← ofJsonAll js)

end

end Value

namespace Operand

/-- The JSON of an operand. -/
def toJson : Operand → Json
  | .prepared => .string "prepared"
  | .literal v => .object [("literal", v.toJson)]

/-- The operand of a JSON value. -/
def ofJson (inner : Bool) : Json → Option Operand
  | .string s => if s = "prepared" then some .prepared else none
  | .object [(key, j)] =>
    if key = "literal" then (Value.ofJson j).map .literal
    else if key = "prepared" ∧ Json.isUnit inner j then some .prepared
    else none
  | _ => none

end Operand

end QueryLayer
