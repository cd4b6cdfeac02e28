import QueryLayer.Json.Numeral

/-!
# From text to tokens

The lexer takes one character at a time. A word or a numeral is a maximal run
of its characters and is judged when the run ends; a string collects its
characters until the closing quote. Two halves of a surrogate pair that stand
together are one character, and a half on its own makes the string broken.
-/

namespace QueryLayer

namespace Json

namespace Lexer

/-- A piece of a string: a character, or a code unit of a surrogate pair. -/
inductive Piece where
  | char (c : Char)
  | half (unit : Nat)
deriving DecidableEq, Repr

/-- The characters of a string, if every half has its partner. -/
def joinHalves : List Piece → Option (List Char)
  | [] => some []
  | .char c :: rest => (joinHalves rest).map (c :: ·)
  | .half high :: .half low :: rest =>
    if high < 0xDC00 ∧ 0xDC00 ≤ low then
      (joinHalves rest).map
        (Char.ofNat (0x10000 + (high - 0xD800) * 0x400 + (low - 0xDC00)) :: ·)
    else none
  | .half _ :: _ => none

/-- What the lexer is in the middle of. The runs hold their last character
first. -/
inductive Mode where
  | between
  | word (run : List Char)
  | numeral (run : List Char)
  | string (run : List Piece)
  /-- After a backslash in a string. -/
  | escape (run : List Piece)
  /-- In the four digits of a code unit. -/
  | code (run : List Piece) (digits : List Nat)
deriving DecidableEq, Repr

/-- The characters of words. -/
def isWordChar (c : Char) : Bool := c.isAlpha

/-- The characters of numerals. An `e` belongs to a numeral only inside one. -/
def isNumeralChar (c : Char) : Bool :=
  c.isDigit || c == '-' || c == '+' || c == '.' || c == 'e' || c == 'E'

/-- The blanks of JSON text. -/
def isSpace (c : Char) : Bool := c == ' ' || c == '\t' || c == '\n' || c == '\r'

/-- The tokens that are one character, except for words, numerals and strings. -/
def mark : Char → Option Token
  | '[' => some .openArray
  | ']' => some .closeArray
  | '{' => some .openObject
  | '}' => some .closeObject
  | ',' => some .comma
  | ':' => some .colon
  | _ => none

/-- The token a word stands for. -/
def wordToken (run : List Char) : Option Token :=
  let word := run.reverse
  if word = ['n', 'u', 'l', 'l'] then some .null
  else if word = ['t', 'r', 'u', 'e'] then some (.bool true)
  else if word = ['f', 'a', 'l', 's', 'e'] then some (.bool false)
  else none

/-- The token of the characters of a string. -/
def stringToken (run : List Piece) : Token :=
  match joinHalves run.reverse with
  | some cs => .text (String.ofList cs)
  | none => .brokenText

/-- The value of a hexadecimal digit in either case. -/
def hexValue (c : Char) : Option Nat :=
  if c.isDigit then some (c.toNat - '0'.toNat)
  else if 'a' ≤ c ∧ c ≤ 'f' then some (c.toNat - 'a'.toNat + 10)
  else if 'A' ≤ c ∧ c ≤ 'F' then some (c.toNat - 'A'.toNat + 10)
  else none

/-- The character an escape of one letter stands for. -/
def escaped : Char → Option Char
  | '"' => some '"'
  | '\\' => some '\\'
  | '/' => some '/'
  | 'b' => some '\x08'
  | 'f' => some '\x0c'
  | 'n' => some '\n'
  | 'r' => some '\r'
  | 't' => some '\t'
  | _ => none

/-- The piece of a code unit, whose digits stand last first. -/
def codePiece (digits : List Nat) : Piece :=
  let unit := digits.foldr (fun d n => n * 16 + d) 0
  if 0xD800 ≤ unit ∧ unit < 0xE000 then .half unit else .char (Char.ofNat unit)

/-- The lexer between two characters: the mode, and the tokens so far with the
last one first. -/
structure State where
  mode : Mode
  tokens : List Token

/-- Nothing read yet. -/
def State.start : State := ⟨.between, []⟩

/-- A character that starts a token or stands between two. -/
def beginToken (tokens : List Token) (c : Char) : Option State :=
  if isSpace c then some ⟨.between, tokens⟩
  else if c = '"' then some ⟨.string [], tokens⟩
  else if c.isDigit ∨ c = '-' then some ⟨.numeral [c], tokens⟩
  else if isWordChar c then some ⟨.word [c], tokens⟩
  else (mark c).map fun t => ⟨.between, t :: tokens⟩

/-- Takes one character. -/
def step (s : State) (c : Char) : Option State :=
  match s.mode with
  | .between => beginToken s.tokens c
  | .word run =>
    if isWordChar c then some ⟨.word (c :: run), s.tokens⟩
    else (wordToken run).bind fun t => beginToken (t :: s.tokens) c
  | .numeral run =>
    if isNumeralChar c then some ⟨.numeral (c :: run), s.tokens⟩
    else (Numeral.read run.reverse).bind fun n => beginToken (n.token :: s.tokens) c
  | .string run =>
    if c = '"' then some ⟨.between, stringToken run :: s.tokens⟩
    else if c = '\\' then some ⟨.escape run, s.tokens⟩
    else if c.toNat < 0x20 then none
    else some ⟨.string (.char c :: run), s.tokens⟩
  | .escape run =>
    if c = 'u' then some ⟨.code run [], s.tokens⟩
    else (escaped c).map fun e => ⟨.string (.char e :: run), s.tokens⟩
  | .code run digits =>
    (hexValue c).map fun d =>
      if digits.length = 3 then ⟨.string (codePiece (d :: digits) :: run), s.tokens⟩
      else ⟨.code run (d :: digits), s.tokens⟩

/-- The tokens at the end of the text. A string must have been closed. -/
def State.finish (s : State) : Option (List Token) :=
  match s.mode with
  | .between => some s.tokens.reverse
  | .word run => (wordToken run).map fun t => (t :: s.tokens).reverse
  | .numeral run => (Numeral.read run.reverse).map fun n => (n.token :: s.tokens).reverse
  | _ => none

/-- The tokens of a text. -/
def run (cs : List Char) : Option (List Token) :=
  (cs.foldlM step State.start).bind State.finish

end Lexer

end Json

end QueryLayer
