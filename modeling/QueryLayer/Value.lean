import QueryLayer.Text.Lexical
import QueryLayer.Decimal.NumberFormat

/-!
# Values

A `Value` is what a query compares with, assigns or inserts, and what a result
holds. A query stores `Operand`s: values that are known when it is built, and
markers for values that are supplied when it is compiled.

Two texts of a value stand inside SQL: `Value.inline` is its literal, and
`Value.quoted` is the literal of its text.
-/

namespace QueryLayer

/-- A database value. -/
inductive Value where
  | null
  | bool (b : Bool)
  | int (n : Int64)
  | float (x : Float)
  | text (s : String)
  | list (items : List Value)
  | blob (bytes : List UInt8)
deriving Inhabited

/-- What a query stores where a value belongs. -/
inductive Operand where
  /-- A value that is known when the query is built. -/
  | literal (v : Value)
  /-- The place of a value that is supplied when the query is compiled. -/
  | prepared
deriving Inhabited

namespace Operand

/-- The operand waits for a value. -/
def isPrepared : Operand → Bool
  | .literal _ => false
  | .prepared => true

end Operand

namespace Value

/-- The value is a list. -/
def isList : Value → Bool
  | .list _ => true
  | _ => false

/-- The items of a list, and any other value as the only item. -/
def toItems : Value → List Value
  | .list vs => vs
  | v => [v]

/-- The two upper-case hexadecimal digits of a byte. -/
def hexByte (b : UInt8) : List Char :=
  [(Nat.digitChar (b.toNat / 16)).toUpper, (Nat.digitChar (b.toNat % 16)).toUpper]

/-- An integer in decimal digits. -/
def intText (n : Int64) : List Char :=
  if n < 0 then '-' :: Nat.toDigits 10 n.toInt.natAbs else Nat.toDigits 10 n.toInt.natAbs

/-- A text as a string literal. -/
def quoteText (cs : List Char) : List Char := Text.Quotes.literal.wrap cs

mutual

/-- The literal of a value in SQL. -/
def inline : Value → List Char
  | .null => "NULL".toList
  | .bool true => "TRUE".toList
  | .bool false => "FALSE".toList
  | .int n => intText n
  | .float x => Decimal.NumberFormat.plain.write x
  | .text s => quoteText s.toList
  | .list vs => '(' :: (List.intercalate [','] (inlineAll vs) ++ [')'])
  | .blob bytes => 'X' :: '\'' :: (bytes.flatMap hexByte ++ ['\''])

/-- The literals of several values. -/
def inlineAll : List Value → List (List Char)
  | [] => []
  | v :: vs => inline v :: inlineAll vs

end

/-- The content of the string literal that stands for a value; nothing for
null, which has no text. -/
def textContent : Value → Option (List Char)
  | .null => none
  | .text s => some s.toList
  | v => some v.inline

/-- The string literal that stands for a value in a column of text. -/
def quoted (v : Value) : List Char :=
  match v.textContent with
  | some cs => quoteText cs
  | none => "NULL".toList

end Value

/-! ## Conversion -/

/-- Types whose members are values. -/
class ToValue (α : Type) where
  /-- The value of a member. -/
  toValue : α → Value

export ToValue (toValue)

instance : ToValue Value := ⟨id⟩
instance : ToValue Bool := ⟨.bool⟩
instance : ToValue Int64 := ⟨.int⟩
instance : ToValue Int32 := ⟨fun n => .int n.toInt64⟩
instance : ToValue Int16 := ⟨fun n => .int n.toInt64⟩
instance : ToValue Int8 := ⟨fun n => .int n.toInt64⟩
instance : ToValue UInt32 := ⟨fun n => .int (Int64.ofNat n.toNat)⟩
instance : ToValue UInt16 := ⟨fun n => .int (Int64.ofNat n.toNat)⟩
instance : ToValue UInt8 := ⟨fun n => .int (Int64.ofNat n.toNat)⟩
instance : ToValue Float := ⟨.float⟩
instance : ToValue Float32 := ⟨fun x => .float x.toFloat⟩
instance : ToValue String := ⟨.text⟩
instance : ToValue ByteArray := ⟨fun bytes => .blob bytes.toList⟩

instance {α : Type} [ToValue α] : ToValue (Option α) := ⟨fun
  | some a => toValue a
  | none => .null⟩

/-- The list of the values of some members. -/
def Value.ofList {α : Type} [ToValue α] (members : List α) : Value :=
  .list (members.map toValue)

end QueryLayer
