import QueryLayer.Sql.Fragment
import QueryLayer.Text.LowerCase
import QueryLayer.Definition

/-!
# Dialects

A dialect of SQL is plain data: its quotes, its table of types and a choice for
each matter in which dialects differ. There is one renderer for all of them.
-/

namespace QueryLayer

/-- Where a database lives. -/
inductive Environment where
  /-- In the process or a file of its own; there is only one database. -/
  | embedded
  /-- On a server with many databases. -/
  | server
deriving DecidableEq, Repr

namespace Environment

/-- The name in listings. -/
def title : Environment → String
  | .embedded => "Local"
  | .server => "Remote"

end Environment

/-- A column type of a dialect. -/
structure NativeType where
  /-- The name in SQL. -/
  name : String
  /-- The type takes a size. -/
  sizeable : Bool
  /-- The size where none is asked for; zero stands for no size. -/
  defaultSize : UInt32
deriving DecidableEq, Repr

namespace NativeType

/-- A type that takes a size and needs none. -/
def plain (name : String) : NativeType := ⟨name, true, 0⟩

/-- A type that takes a size and has one where none is asked for. -/
def sized (name : String) (size : UInt32) : NativeType := ⟨name, true, size⟩

/-- A type that takes no size. -/
def fixed (name : String) : NativeType := ⟨name, false, 0⟩

/-- The type with a size. -/
def render (t : NativeType) (size : Option UInt32) : String :=
  let size := match size with
    | some n => if n = 0 then t.defaultSize else n
    | none => t.defaultSize
  if t.sizeable && size != 0 then t.name ++ "(" ++ toString size.toNat ++ ")" else t.name

end NativeType

/-- How columns count up by themselves. -/
inductive AutoIncrement where
  /-- By an option of the column. -/
  | keyword (text : String)
  /-- By a type of their own. -/
  | serial
deriving DecidableEq, Repr

/-- How defaults are given. -/
inductive DefaultStyle where
  /-- As a bound value. -/
  | bound
  /-- As a literal. -/
  | inline
deriving DecidableEq, Repr

/-- Where indexes are defined. -/
inductive IndexStyle where
  /-- Inside the definition of the table. -/
  | inline
  /-- In statements of their own. -/
  | separate
deriving DecidableEq, Repr

/-- How a window of rows is written. -/
inductive LimitStyle where
  | limitOffset
  | offsetFetch
deriving DecidableEq, Repr

/-- How rows are replaced. -/
inductive ReplaceStyle where
  | unsupported
  | replaceInto
deriving DecidableEq, Repr

/-- A dialect of SQL. -/
structure Dialect where
  /-- The name by which it is looked up. -/
  name : String
  /-- The scheme of its addresses. -/
  protocol : String
  /-- The port of its servers. -/
  port : Option UInt16
  /-- Where its databases live. -/
  environment : Environment
  /-- The quotes around names. -/
  quotes : Text.Quotes
  /-- The types of columns. -/
  types : DataType → Option NativeType
  /-- How columns count up. -/
  autoIncrement : AutoIncrement
  /-- How defaults are given. -/
  defaultStyle : DefaultStyle
  /-- Where indexes are defined. -/
  indexStyle : IndexStyle
  /-- How a window of rows is written. -/
  limitStyle : LimitStyle
  /-- How rows are replaced. -/
  replaceStyle : ReplaceStyle
  /-- A primary key is also declared unique. -/
  primaryKeyUnique : Bool
  /-- Full joins exist. -/
  fullJoin : Bool
  /-- A table can be created from a search. -/
  createSelect : Bool
  /-- A table can name its storage engine. -/
  engine : Bool

namespace Dialect

/-- A dialect with the common choices and no types. -/
def new (name : String) (environment : Environment) : Dialect where
  name := name
  protocol := Text.lowerCase name
  port := none
  environment := environment
  quotes := ⟨'"', '"'⟩
  types := fun _ => none
  autoIncrement := .keyword " AUTO_INCREMENT"
  defaultStyle := .bound
  indexStyle := .inline
  limitStyle := .limitOffset
  replaceStyle := .unsupported
  primaryKeyUnique := false
  fullJoin := true
  createSelect := false
  engine := false

/-- The dialect with one type more or another one in its place. -/
def withType (d : Dialect) (dataType : DataType) (native : NativeType) : Dialect :=
  { d with types := fun t => if t = dataType then some native else d.types t }

/-- The mark that stands in the text for a bound value. -/
def placeholder : String := "?"

/-- A name between quotes. -/
def quote (d : Dialect) (name : String) : String := String.ofList (d.quotes.wrap name.toList)

/-- The name of a table. Embedded databases have no database part. -/
def table (d : Dialect) (c : CollectionRef) : Sql.Fragment :=
  match d.environment with
  | .server => [.name c.database, .text ".", .name c.name]
  | .embedded => [.name c.name]

/-- The text of a fragment in this dialect. -/
def write (d : Dialect) (f : Sql.Fragment) : String := String.ofList (f.write d.quotes)

/-- The address of a database. -/
def url (d : Dialect) (location : String) (port : Option UInt16) : String :=
  match d.environment with
  | .server =>
    match port.or d.port with
    | some p => d.protocol ++ "://" ++ location ++ ":" ++ toString p.toNat
    | none => d.protocol ++ "://" ++ location
  | .embedded => d.protocol ++ ":" ++ location

end Dialect

end QueryLayer
