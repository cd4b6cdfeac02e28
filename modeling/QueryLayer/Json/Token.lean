import QueryLayer.Json.Basic
import QueryLayer.Decimal.NumberFormat

/-!
# Tokens and the compact text

A value is written as the texts of its tokens, one after the other and with
nothing between them. Only the quote, the backslash and the control characters
below the blank are escaped in a string.
-/

namespace QueryLayer

namespace Json

/-- The smallest pieces of JSON text. -/
inductive Token where
  | openArray
  | closeArray
  | openObject
  | closeObject
  | comma
  | colon
  | null
  | bool (b : Bool)
  | int (n : Int)
  | float (x : Float)
  | text (s : String)
  /-- A string with half of a surrogate pair. -/
  | brokenText
  /-- A number past the range of doubles. -/
  | outOfRange
deriving Inhabited

/-- A character inside a string. -/
def escape (c : Char) : List Char :=
  if c = '"' then ['\\', '"']
  else if c = '\\' then ['\\', '\\']
  else if c = '\x08' then ['\\', 'b']
  else if c = '\x0c' then ['\\', 'f']
  else if c = '\n' then ['\\', 'n']
  else if c = '\r' then ['\\', 'r']
  else if c = '\t' then ['\\', 't']
  else if c.toNat < 0x20 then
    ['\\', 'u', '0', '0', Nat.digitChar (c.toNat / 16), Nat.digitChar (c.toNat % 16)]
  else [c]

/-- A string between its quotes. -/
def writeString (s : String) : List Char := '"' :: (s.toList.flatMap escape ++ ['"'])

/-- An integer in decimal digits. -/
def writeInt (n : Int) : List Char :=
  if n < 0 then '-' :: Nat.toDigits 10 n.natAbs else Nat.toDigits 10 n.natAbs

/-- A float, or `null` where there is no finite one. -/
def writeFloat (x : Float) : List Char :=
  if x.isNaN || x.isInf then ['n', 'u', 'l', 'l'] else Decimal.NumberFormat.json.write x

/-- The text of one token. What stands for no value is written as `null`. -/
def Token.write : Token → List Char
  | .openArray => ['[']
  | .closeArray => [']']
  | .openObject => ['{']
  | .closeObject => ['}']
  | .comma => [',']
  | .colon => [':']
  | .null | .brokenText | .outOfRange => ['n', 'u', 'l', 'l']
  | .bool true => ['t', 'r', 'u', 'e']
  | .bool false => ['f', 'a', 'l', 's', 'e']
  | .int n => writeInt n
  | .float x => writeFloat x
  | .text s => writeString s

mutual

/-- The tokens of a value, in order. -/
def tokens : Json → List Token
  | .null => [.null]
  | .bool b => [.bool b]
  | .int n => [.int n]
  | .float x => [.float x]
  | .string s => [.text s]
  | .array [] => [.openArray, .closeArray]
  | .array (j :: rest) => .openArray :: (tokens j ++ tokensItems rest)
  | .object [] => [.openObject, .closeObject]
  | .object ((k, j) :: rest) => .openObject :: .text k :: .colon :: (tokens j ++ tokensMembers rest)
  | .broken => [.outOfRange]

/-- The tokens after the first item of an array. -/
def tokensItems : List Json → List Token
  | [] => [.closeArray]
  | j :: rest => .comma :: (tokens j ++ tokensItems rest)

/-- The tokens after the first member of an object. -/
def tokensMembers : List (String × Json) → List Token
  | [] => [.closeObject]
  | (k, j) :: rest => .comma :: .text k :: .colon :: (tokens j ++ tokensMembers rest)

end

/-- The compact text of a value, as characters. -/
def write (j : Json) : List Char := j.tokens.flatMap Token.write

/-- The compact text of a value. -/
def compact (j : Json) : String := String.ofList j.write

end Json

end QueryLayer
