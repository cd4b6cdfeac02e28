/-!
# Names, quotes and blanks

Conventions for short texts. Dialect names and the columns of an insert are matched
without regard to ASCII case, a quoted text doubles the closing quotes inside it, and
white space is what Unicode says it is.
-/

namespace QueryLayer

namespace Text

/-! ## Names compared without regard to ASCII case

The letters `A` to `Z` equal their lower-case partners, and every other character
equals itself only. -/

/-- The characters of a text, with the letters `A` to `Z` in lower case. -/
def foldCase (s : String) : List Char := s.toList.map Char.toLower

/-- Two texts are the same name when they differ in the case of ASCII letters
at most. -/
def sameName (a b : String) : Bool := foldCase a == foldCase b

/-! Being the same name is an equivalence, since it compares one key. -/

theorem sameName_iff {a b : String} : sameName a b = true ↔ foldCase a = foldCase b := by
  simp [sameName]

theorem sameName_refl (a : String) : sameName a a = true := sameName_iff.2 rfl

theorem sameName_comm (a b : String) : sameName a b = sameName b a := by
  rw [Bool.eq_iff_iff, sameName_iff, sameName_iff]
  exact eq_comm

/-- Two spellings of a name are the same as the same names. -/
theorem sameName_congr {a b : String} (hab : sameName a b = true) (c : String) :
    sameName c a = sameName c b := by
  rw [Bool.eq_iff_iff, sameName_iff, sameName_iff, sameName_iff.1 hab]

theorem sameName_congr_left {a b : String} (hab : sameName a b = true) (c : String) :
    sameName a c = sameName b c := by
  rw [sameName_comm a, sameName_comm b, sameName_congr hab]

/-! ## Quoted text with a doubled closing quote

A name or a string literal is written between two quote characters, and a closing
quote inside it is written twice. The first closing quote that is not doubled ends the
token, so no content can leave its quotes. -/

/-- The two characters that stand around a quoted text. -/
structure Quotes where
  /-- Opens the token. -/
  opening : Char
  /-- Closes the token, and is written twice inside it. -/
  closing : Char
deriving DecidableEq, Repr

namespace Quotes

/-- The content with every closing quote written twice. -/
def double (q : Quotes) : List Char → List Char
  | [] => []
  | c :: cs => if c = q.closing then q.closing :: c :: q.double cs else c :: q.double cs

/-- The whole token: the content, doubled, between the quotes. -/
def wrap (q : Quotes) (content : List Char) : List Char :=
  q.opening :: (q.double content ++ [q.closing])

/-- Single quotes, which stand around string literals in every dialect. -/
def literal : Quotes := ⟨'\'', '\''⟩

end Quotes

/-! ## Blank characters

The 25 characters of the Unicode property White_Space, and the text left when they are
cut from its end. -/

/-- Closed ranges of code points with the property White_Space, ascending. -/
def blankRanges : List (Nat × Nat) :=
  [(0x09, 0x0D), (0x20, 0x20), (0x85, 0x85), (0xA0, 0xA0), (0x1680, 0x1680), (0x2000, 0x200A),
    (0x2028, 0x2029), (0x202F, 0x202F), (0x205F, 0x205F), (0x3000, 0x3000)]

/-- The character is white space. -/
def isBlank (c : Char) : Bool := blankRanges.any fun r => r.1 ≤ c.toNat && c.toNat ≤ r.2

/-- The text without the blank characters at its end. -/
def trimEnd (cs : List Char) : List Char := (cs.reverse.dropWhile isBlank).reverse

end Text

end QueryLayer
