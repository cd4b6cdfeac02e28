/-!
# Patterns

A `Pattern` is a list of parts, each of which stands for some stretch of a
subject: a text that must stand there, any stretch at all, or exactly one
character. Its LIKE text writes the wildcards as `%` and `_` and puts a
backslash before every `%`, `_` and backslash of a text.
-/

namespace QueryLayer

namespace Pattern

/-- One part of a pattern. -/
inductive Part where
  /-- This text. -/
  | exactly (s : List Char)
  /-- Any text, also the empty one. -/
  | any
  /-- Any one character. -/
  | one
deriving DecidableEq, Repr

/-- The text with a backslash before each character that LIKE reads specially. -/
def escape (s : List Char) : List Char :=
  s.flatMap fun c => if c = '%' ∨ c = '_' ∨ c = '\\' then ['\\', c] else [c]

/-- The LIKE text of a part. -/
def Part.like : Part → List Char
  | .exactly s => escape s
  | .any => ['%']
  | .one => ['_']

end Pattern

/-- A pattern as the list of its parts. -/
structure Pattern where
  /-- The parts, in the order in which they stand in a subject. -/
  parts : List Pattern.Part
deriving DecidableEq, Repr

namespace Pattern

/-- The pattern of the empty text. -/
def empty : Pattern := ⟨[]⟩

/-- The pattern with one more part at its end. -/
def push (p : Pattern) (part : Part) : Pattern := ⟨p.parts ++ [part]⟩

/-- The pattern, then this text. -/
def exactly (p : Pattern) (s : String) : Pattern := p.push (.exactly s.toList)

/-- The pattern, then any text. -/
def any (p : Pattern) : Pattern := p.push .any

/-- The pattern, then any one character. -/
def one (p : Pattern) : Pattern := p.push .one

/-- Texts that start with this one. -/
def startsWith (s : String) : Pattern := (empty.exactly s).any

/-- Texts that end with this one. -/
def endsWith (s : String) : Pattern := empty.any.exactly s

/-- Texts that contain this one. -/
def contains (s : String) : Pattern := (empty.any.exactly s).any

/-- The LIKE text of a pattern, as characters. -/
def like (p : Pattern) : List Char := p.parts.flatMap Part.like

/-- The LIKE text of a pattern. -/
def text (p : Pattern) : String := String.ofList p.like

end Pattern

end QueryLayer
