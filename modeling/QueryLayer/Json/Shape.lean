import QueryLayer.Json.Basic

/-!
# The shapes of records and variants

A record is an object, whose unknown keys are ignored, or an array of its
fields in order. A tagged variant carries the name of its variant under one
key of its object, wherever that stands, or as the first item of its array. A
plain variant is its name.

A value inside a tagged variant is read more freely: there the place of a
variant in its list may stand for its name, and `inner` says that this is so.
-/

namespace QueryLayer

namespace Json

/-- The values of the known keys of an object, in the order of `keys`. A known
key that stands twice is refused. -/
def pick (keys : List String) (members : List (String × Json)) : Option (List (Option Json)) :=
  keys.mapM fun key =>
    match members.filter (·.1 == key) with
    | [] => some none
    | [m] => some (some m.2)
    | _ => none

/-- The values of a record's fields, as far as they are given. -/
def recordFields (keys : List String) : Json → Option (List (Option Json))
  | .object members => pick keys members
  | .array items =>
    if items.length ≤ keys.length then
      some (items.map some ++ List.replicate (keys.length - items.length) none)
    else none
  | _ => none

/-- A field that must be given. -/
def required {α : Type} (read : Json → Option α) : Option Json → Option α
  | some j => read j
  | none => none

/-- A field that may be missing or null. -/
def optional {α : Type} (read : Json → Option α) : Option Json → Option (Option α)
  | none | some .null => some none
  | some j => (read j).map some

/-- An array of values. -/
def items {α : Type} (read : Json → Option α) : Json → Option (List α)
  | .array js => js.mapM read
  | _ => none

/-- A list that is empty where it is missing. -/
def listed {α : Type} (read : Json → Option α) : Option Json → Option (List α)
  | none => some []
  | some j => items read j

/-- A text. -/
def asText : Json → Option String
  | .string s => some s
  | _ => none

/-- An integer literal from zero up to a bound. -/
def asBounded (bound : Nat) : Json → Option Nat
  | .int n => if 0 ≤ n ∧ n ≤ bound then some n.toNat else none
  | _ => none

/-- The name of a variant, or inside a tagged variant its place. -/
def variantName (inner : Bool) (names : List String) : Json → Option String
  | .string s => if s ∈ names then some s else none
  | .int n => if inner ∧ 0 ≤ n then names[n.toNat]? else none
  | _ => none

/-- A value that says nothing beside the name of its variant. -/
def isUnit (inner : Bool) : Json → Bool
  | .null => true
  | .object members => inner && members.isEmpty
  | _ => false

/-- A plain variant: its name, or an object with its name as the only key. -/
def plainVariant {α : Type} (all : List α) (name : α → String) (inner : Bool) : Json → Option α
  | .string s => all.find? (name · == s)
  | .object [(s, j)] => if isUnit inner j then all.find? (name · == s) else none
  | _ => none

/-- A tagged variant: the name of the variant and the record that carries it,
with the tag removed. -/
def taggedVariant (inner : Bool) (tag : String) (names : List String) (j : Json) :
    Option (String × Json) :=
  if !j.isSound then none
  else match j with
    | .object members =>
      match members.filter (·.1 == tag) with
      | [m] => (variantName inner names m.2).map fun name =>
        (name, .object (members.filter (·.1 != tag)))
      | _ => none
    | .array (first :: rest) =>
      (variantName inner names first).map fun name => (name, .array rest)
    | _ => none

end Json

end QueryLayer
