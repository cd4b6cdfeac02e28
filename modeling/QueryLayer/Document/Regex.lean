/-!
# LIKE patterns as regular expressions

A LIKE pattern is a list of items: any text, any one character, or a character
that stands for itself. A backslash makes the character after it stand for
itself; at the end of a pattern it stands for nothing.
-/

namespace QueryLayer

namespace Document

/-- An item of a LIKE pattern. -/
inductive LikeItem where
  | any
  | one
  | literal (c : Char)
deriving DecidableEq, Repr

/-- The items of a LIKE pattern. -/
def likeItems : List Char → List LikeItem
  | [] => []
  | '\\' :: [] => []
  | '\\' :: c :: cs => .literal c :: likeItems cs
  | '%' :: cs => .any :: likeItems cs
  | '_' :: cs => .one :: likeItems cs
  | c :: cs => .literal c :: likeItems cs

/-- The characters that a regular expression reads specially. -/
def specialChars : List Char :=
  ['\\', '^', '$', '.', '|', '?', '*', '+', '(', ')', '[', ']', '{', '}']

/-- The regular expression of one item. -/
def LikeItem.regex : LikeItem → List Char
  | .any => ['.', '*']
  | .one => ['.']
  | .literal c => if c ∈ specialChars then ['\\', c] else [c]

/-- The regular expression of a LIKE pattern, from the start of a text to its
end. -/
def likeRegex (pattern : List Char) : List Char :=
  '^' :: ((likeItems pattern).flatMap LikeItem.regex ++ ['$'])

end Document

end QueryLayer
