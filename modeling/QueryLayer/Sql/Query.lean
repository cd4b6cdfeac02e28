import QueryLayer.Sql.Fragment
import QueryLayer.Text.Lexical

/-!
# SQL queries

A query is one command with its bound values, and commands without values that
follow it. `placeholderCount` reads a text from the outside and counts the
marks that stand outside of quotes.
-/

namespace QueryLayer

namespace Sql

namespace Fragment

/-- The fragment, last piece first, without the blanks that end it. A piece
that is partly blank at its end stays as the text before the blanks. -/
def dropBlank (q : Text.Quotes) : Fragment → Fragment
  | [] => []
  | p :: rest =>
    let kept := Text.trimEnd (p.write q)
    if kept.isEmpty then dropBlank q rest
    else if kept = p.write q then p :: rest
    else .text (String.ofList kept) :: rest

/-- The fragment without the blanks at its end. -/
def trimEnd (q : Text.Quotes) (f : Fragment) : Fragment := (dropBlank q f.reverse).reverse

end Fragment

/-- A command and what follows it. -/
structure Query where
  /-- The quotes around names. -/
  quotes : Text.Quotes
  /-- The command. -/
  command : Fragment
  /-- Commands to run afterwards. -/
  additional : List Fragment

/-- The closing quote for a character that opens a quoted stretch in any
dialect. -/
def closingOf : Char → Option Char
  | '\'' => some '\''
  | '"' => some '"'
  | '\x60' => some '\x60'
  | '[' => some ']'
  | _ => none

/-- The number of placeholders in a text, when the stretch that is open ends at
the given quote. A doubled quote closes the stretch and opens it again. -/
def countPlaceholders : Option Char → List Char → Nat
  | _, [] => 0
  | some close, c :: cs => countPlaceholders (if c = close then none else some close) cs
  | none, c :: cs =>
    if c = '?' then countPlaceholders none cs + 1 else countPlaceholders (closingOf c) cs

/-- The number of placeholders in a text, outside of names and literals. -/
def placeholderCount (s : String) : Nat := countPlaceholders none s.toList

namespace Query

/-- The text of the command. -/
def text (q : Query) : String := String.ofList (q.command.write q.quotes)

/-- The bound values, in the order of their placeholders. -/
def params (q : Query) : List Value := q.command.bound

/-- The texts of the commands that follow. -/
def additionalTexts (q : Query) : List String :=
  q.additional.map fun f => String.ofList (f.write q.quotes)

/-- The number of placeholders in the text of the command. -/
def placeholderCount (q : Query) : Nat := Sql.placeholderCount q.text

end Query

end Sql

end QueryLayer
