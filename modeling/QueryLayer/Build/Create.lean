import QueryLayer.Error
import QueryLayer.Statement

/-!
# Building creates
-/

namespace QueryLayer

namespace Create

/-- The create without definitions. -/
def of (c : CollectionRef) : Create := ⟨c, [], none, none⟩

/-- Adds a definition. -/
def define (s : Create) (d : Definition) : Create :=
  { s with definitions := s.definitions ++ [d] }

/-- Adds a column with the size of its type and no options. -/
def column (s : Create) (field : String) (t : DataType) : Create :=
  s.define (.column ⟨field, t, none, none, []⟩)

/-- Names the storage engine. -/
def withEngine (s : Create) (name : String) : Create := { s with engine := some name }

/-- Fills the new collection with the rows of a search. -/
def includeFind (s : Create) (f : Find) : Except QueryError Create :=
  if s.included.isSome then .error .duplicateInclude else .ok { s with included := some f }

end Create

end QueryLayer
