import QueryLayer.Text.CaseTable

/-!
# Lower case

Every character has a lower-case partner, mostly itself. Two rules go beyond
single characters: a dotted capital I becomes two characters, and a capital
sigma has another partner at the end of a word.
-/

namespace QueryLayer

namespace Text

/-- The character lies in one of the ranges. -/
def inRanges (ranges : List (Nat × Nat)) (c : Char) : Bool :=
  ranges.any fun r => r.1 ≤ c.toNat && c.toNat ≤ r.2

/-- The lower-case partner of a character. -/
def lowerChar (c : Char) : Char :=
  match caseRuns.find? fun r =>
    r.first ≤ c.toNat && c.toNat ≤ r.last && (c.toNat - r.first) % r.stride == 0 with
  | some r => Char.ofNat (c.toNat + r.distance).toNat
  | none => c

/-- The nearest character that is not passed over has case. -/
def meetsCased (cs : List Char) : Bool :=
  match cs.dropWhile (inRanges caseIgnorableRanges) with
  | c :: _ => inRanges casedRanges c
  | [] => false

/-- The text after `before` in lower case; `before` stands last character
first. -/
def lowerFrom (before : List Char) : List Char → List Char
  | [] => []
  | c :: cs =>
    let lowered :=
      if c = 'İ' then ['i', '\u0307']
      else if c = 'Σ' then if meetsCased before && !meetsCased cs then ['ς'] else ['σ']
      else [lowerChar c]
    lowered ++ lowerFrom (c :: before) cs

/-- The text in lower case. -/
def lowerCase (s : String) : String := String.ofList (lowerFrom [] s.toList)

end Text

end QueryLayer
