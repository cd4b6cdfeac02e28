import QueryLayer.Dialect.Builtin
import QueryLayer.Text.Lexical

/-!
# The registry of dialects

A registry is a list of dialects in the order of registration. Names are
compared without regard to ASCII case, and of two registrations under one name
the later one stays.
-/

namespace QueryLayer

/-- Dialects by name. -/
structure Registry where
  /-- The dialects, in the order in which they were registered. -/
  dialects : List Dialect

namespace Registry

/-- The registry without dialects. -/
def empty : Registry := ⟨[]⟩

/-- The dialect is known under this name. -/
def named (name : String) (d : Dialect) : Bool := Text.sameName d.name name

/-- The dialect of a name. -/
def get? (r : Registry) (name : String) : Option Dialect := r.dialects.find? (named name)

/-- The registry without the dialect of a name. -/
def unregister (r : Registry) (name : String) : Registry := ⟨r.dialects.eraseP (named name)⟩

/-- Takes the dialect of a name out: what was taken, if there was one, and the
registry without it. -/
def remove (r : Registry) (name : String) : Option Dialect × Registry :=
  match r.dialects.findIdx? (named name) with
  | some i => (r.dialects[i]?, ⟨r.dialects.eraseIdx i⟩)
  | none => (none, r)

/-- The registry with a dialect at its end, in place of one of the same name. -/
def register (r : Registry) (d : Dialect) : Registry :=
  ⟨(r.unregister d.name).dialects ++ [d]⟩

/-- The names in the order of registration. -/
def names (r : Registry) : List String := r.dialects.map (·.name)

/-- The registry of the dialects that come with the library. -/
def defaults : Registry := Dialect.builtin.foldl register empty

end Registry

end QueryLayer
