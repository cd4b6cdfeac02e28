import QueryLayer.Value
import QueryLayer.Field

/-!
# Fragments of SQL

A fragment is a list of pieces: words and marks of SQL itself, names, string
literals, and slots for bound values. Its text and its bound values are both
read off the same list, so the placeholders of the text and the values stand in
the same order by construction.
-/

namespace QueryLayer

namespace Sql

/-- What a bound value is for. -/
inductive Slot where
  /-- The operand of an assignment. -/
  | assignment
  /-- The operand of a comparison. -/
  | operand
  /-- An item of a list, by its place. -/
  | item (index : Nat)
  | lowerBound
  | upperBound
  | limit
  | offset
  /-- The default of a column. -/
  | default
  /-- A cell of an insert. -/
  | cell (row column : Nat)
deriving DecidableEq, Repr

/-- A piece of SQL. -/
inductive Piece where
  /-- Words and marks, written as they are. -/
  | text (s : String)
  /-- A name, written between the quotes of the dialect. -/
  | name (n : String)
  /-- A string literal with this content. -/
  | literal (content : List Char)
  /-- A placeholder and the value bound to it. -/
  | slot (s : Slot) (v : Value)
deriving Inhabited

/-- A stretch of SQL. -/
abbrev Fragment := List Piece

namespace Piece

/-- The text of a piece. -/
def write (q : Text.Quotes) : Piece → List Char
  | .text s => s.toList
  | .name n => q.wrap n.toList
  | .literal content => Text.Quotes.literal.wrap content
  | .slot _ _ => ['?']

/-- The value bound by a piece. -/
def bound : Piece → Option Value
  | .slot _ v => some v
  | _ => none

end Piece

namespace Fragment

/-- The text of a fragment. -/
def write (q : Text.Quotes) (f : Fragment) : List Char := f.flatMap (Piece.write q)

/-- The bound values of a fragment, in the order of their placeholders. -/
def bound (f : Fragment) : List Value := f.filterMap Piece.bound

/-- Fragments with a mark between each two. -/
def join (mark : String) (fs : List Fragment) : Fragment := List.intercalate [.text mark] fs

@[simp] theorem write_append (q : Text.Quotes) (f g : Fragment) :
    write q (f ++ g) = write q f ++ write q g := by simp [write]

@[simp] theorem bound_append (f g : Fragment) : bound (f ++ g) = bound f ++ bound g := by
  simp [bound]

end Fragment

/-- The name of a field, with the parts that are given. -/
def fieldName (f : FieldRef) : Fragment :=
  Fragment.join "." (f.parts.map fun part => [.name part])

mutual

/-- The literal of a value as a fragment. -/
def inlineValue : Value → Fragment
  | .text s => [.literal s.toList]
  | .list vs => .text "(" :: (Fragment.join "," (inlineValues vs) ++ [.text ")"])
  | .blob bytes => [.text "X", .literal (bytes.flatMap Value.hexByte)]
  | v => [.text (String.ofList v.inline)]

/-- The literals of several values. -/
def inlineValues : List Value → List Fragment
  | [] => []
  | v :: vs => inlineValue v :: inlineValues vs

end

/-- The string literal that stands for a value, as a fragment. -/
def quotedValue (v : Value) : Fragment :=
  match v.textContent with
  | some cs => [.literal cs]
  | none => [.text "NULL"]

end Sql

end QueryLayer
