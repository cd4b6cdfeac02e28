import QueryLayer.Entry

/-!
# Definitions of columns and foreign keys

What a create statement lists: the columns of the new collection, with an
abstract data type that each dialect maps to one of its own, and references to
other collections.
-/

namespace QueryLayer

/-- The abstract types of columns. -/
inductive DataType where
  | double
  | decimal
  | float
  | integer
  | long
  | char
  | string
  | longText
  | date
  | dateTime
  | timestamp
  | binary
  | uuid
  | document
  | boolean
deriving DecidableEq, Repr, Inhabited

namespace DataType

/-- Every data type, in the order in which tables list them. -/
def all : List DataType :=
  [.double, .decimal, .float, .integer, .long, .char, .string, .longText, .date, .dateTime,
    .timestamp, .binary, .uuid, .document, .boolean]

/-- The name in messages. -/
def title : DataType → String
  | .double => "Double"
  | .decimal => "Decimal"
  | .float => "Float"
  | .integer => "Integer"
  | .long => "Long"
  | .char => "Char"
  | .string => "String"
  | .longText => "LongText"
  | .date => "Date"
  | .dateTime => "DateTime"
  | .timestamp => "Timestamp"
  | .binary => "Binary"
  | .uuid => "Uuid"
  | .document => "Document"
  | .boolean => "Boolean"

/-- The name in queries. -/
def name : DataType → String
  | .double => "double"
  | .decimal => "decimal"
  | .float => "float"
  | .integer => "integer"
  | .long => "long"
  | .char => "char"
  | .string => "string"
  | .longText => "long_text"
  | .date => "date"
  | .dateTime => "date_time"
  | .timestamp => "timestamp"
  | .binary => "binary"
  | .uuid => "uuid"
  | .document => "document"
  | .boolean => "boolean"

/-- The type holds text, so that its defaults are written as text. -/
def isTextual : DataType → Bool
  | .string | .longText | .char => true
  | _ => false

end DataType

/-- The options of a column. -/
inductive ColumnOption where
  | primaryKey
  | autoIncrement
  | notNull
  | unique
  | index
  | uniqueIndex
deriving DecidableEq, Repr

namespace ColumnOption

/-- Every option. -/
def all : List ColumnOption :=
  [.primaryKey, .autoIncrement, .notNull, .unique, .index, .uniqueIndex]

/-- The name in queries. -/
def name : ColumnOption → String
  | .primaryKey => "primary_key"
  | .autoIncrement => "auto_increment"
  | .notNull => "not_null"
  | .unique => "unique"
  | .index => "index"
  | .uniqueIndex => "unique_index"

end ColumnOption

/-- A column of a new collection. -/
structure Column where
  /-- The name. -/
  field : String
  /-- The abstract type. -/
  dataType : DataType
  /-- The size of the type; zero asks for the size of the dialect. -/
  size : Option UInt32
  /-- The value where a row gives none. -/
  default : Option Value
  /-- The options. -/
  options : List ColumnOption
deriving Inhabited

namespace Column

/-- The column has the option. -/
def has (c : Column) (o : ColumnOption) : Bool := o ∈ c.options

end Column

/-- What happens to a row whose referenced row changes. -/
inductive ForeignKeyAction where
  | default
  | cascade
  | setNull
deriving DecidableEq, Repr

namespace ForeignKeyAction

/-- Every action. -/
def all : List ForeignKeyAction := [.default, .cascade, .setNull]

/-- The name in queries. -/
def name : ForeignKeyAction → String
  | .default => "default"
  | .cascade => "cascade"
  | .setNull => "set_null"

/-- The name in SQL. -/
def keyword : ForeignKeyAction → String
  | .default => "DEFAULT"
  | .cascade => "CASCADE"
  | .setNull => "SET NULL"

end ForeignKeyAction

/-- A field of another collection, and what follows from changes to it. -/
structure ForeignKey where
  /-- The referenced collection. -/
  collection : CollectionRef
  /-- The referenced field. -/
  field : String
  /-- What follows from a removal. -/
  onDelete : Option ForeignKeyAction
  /-- What follows from an update. -/
  onUpdate : Option ForeignKeyAction
deriving DecidableEq, Repr

/-- One line of a create statement. -/
inductive Definition where
  | column (c : Column)
  /-- A field of the new collection that refers to another collection. -/
  | foreignKey (field : String) (key : ForeignKey)

end QueryLayer
