import QueryLayer.Definition

/-!
# Statements

A statement is complete: it names its collection and holds its entries. Only
the values of its markers are still missing.
-/

namespace QueryLayer

/-- Entries on a collection. -/
structure Search where
  /-- The collection. -/
  collection : CollectionRef
  /-- The entries. -/
  entries : List Entry
deriving Inhabited

/-- A search and the columns it returns. -/
structure Find extends Search where
  /-- The columns; without any, all columns are returned. -/
  projection : List Projection
deriving Inhabited

/-- Rows to insert, held by column. -/
structure Insert where
  /-- The collection. -/
  collection : CollectionRef
  /-- The columns. -/
  columns : List InsertColumn
deriving Inhabited

/-- A collection to create. -/
structure Create where
  /-- The new collection. -/
  collection : CollectionRef
  /-- The columns and foreign keys. -/
  definitions : List Definition
  /-- The storage engine. -/
  engine : Option String
  /-- A search whose rows fill the new collection. -/
  included : Option Find
deriving Inhabited

/-- What a drop removes. -/
inductive DropTarget where
  | collection (c : CollectionRef)
  | database (name : String)
deriving DecidableEq, Repr

/-- A statement of any kind. -/
inductive Statement where
  | find (s : Find)
  | insert (s : Insert)
  /-- The assignments are the `set` entries, and the others filter. -/
  | update (s : Search)
  | delete (s : Search)
  /-- The `set` entries are the new content, and the others filter. -/
  | replace (s : Search)
  | create (s : Create)
  | drop (target : DropTarget)
  /-- Removes every row and keeps the collection. -/
  | clear (collection : CollectionRef)
  /-- The number of rows a search returns. -/
  | count (s : Search)

/-- The column that holds the result of a count. -/
def countColumn : String := "size"

namespace Statement

/-- The name of the kind of statement. -/
def kind : Statement → String
  | .find _ => "find"
  | .insert _ => "insert"
  | .update _ => "update"
  | .delete _ => "delete"
  | .replace _ => "replace"
  | .create _ => "create"
  | .drop _ => "drop"
  | .clear _ => "clear"
  | .count _ => "count"

/-- The collection of a statement. The removal of a database has none. -/
def collection : Statement → Option CollectionRef
  | .find s => some s.collection
  | .insert s => some s.collection
  | .update s | .delete s | .replace s | .count s => some s.collection
  | .create s => some s.collection
  | .drop (.collection c) => some c
  | .drop (.database _) => none
  | .clear c => some c

end Statement

end QueryLayer
