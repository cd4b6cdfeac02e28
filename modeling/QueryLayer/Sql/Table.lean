import QueryLayer.Dialect.Basic
import QueryLayer.Error

/-!
# The definition of a table in SQL

Each column is its name, its type and its options in the order given; each
foreign key is a constraint. Indexes and constraints get names from the table,
the field and what they are, cut to a length that every dialect takes.
-/

namespace QueryLayer

namespace Sql

/-- The longest name of an index or a constraint, in characters. -/
def maxNameLength : Nat := 64

/-- The name of an index or a constraint on one field. -/
def constraintName (collection : CollectionRef) (field ending : String) : String :=
  String.ofList
    ((collection.name ++ "_" ++ field ++ "_" ++ ending).toList.take maxNameLength)

/-- The kind of index that an option asks for, as the ending of its name and
its words in SQL. -/
def indexKind : ColumnOption → Option (String × String)
  | .index => some ("index", "INDEX")
  | .uniqueIndex => some ("unique", "UNIQUE INDEX")
  | _ => none

/-- The column counts up by a type of its own. -/
def isSerial (d : Dialect) (c : Column) : Bool :=
  c.has .autoIncrement && d.autoIncrement == .serial

/-- The default of a column: bound, or as a literal that suits its type. -/
def defaultValue (d : Dialect) (t : DataType) (v : Value) : Fragment :=
  match d.defaultStyle with
  | .bound => [.text " DEFAULT ", .slot .default v]
  | .inline => .text " DEFAULT " :: (if t.isTextual then quotedValue v else inlineValue v)

/-- The type of a column and its default. A column that counts up by its type
has no default. -/
def columnType (d : Dialect) (c : Column) (t : NativeType) : Fragment :=
  if isSerial d c then [.text (if c.dataType = .long then "BIGSERIAL" else "SERIAL")]
  else .text (t.render c.size) :: (c.default.toList.flatMap (defaultValue d c.dataType))

/-- What an option adds to its column. Indexes stand elsewhere. -/
def columnOption (d : Dialect) : ColumnOption → Fragment
  | .primaryKey => [.text " PRIMARY KEY"]
  | .notNull => [.text " NOT NULL"]
  | .unique => [.text " UNIQUE"]
  | .autoIncrement =>
    match d.autoIncrement with
    | .keyword k => [.text k]
    | .serial => []
  | .index | .uniqueIndex => []

/-- The indexes of a column that stand inside the table, each after a comma. -/
def inlineIndexes (d : Dialect) (collection : CollectionRef) (c : Column) : Fragment :=
  match d.indexStyle with
  | .inline => c.options.flatMap fun o =>
    match indexKind o with
    | some (ending, words) =>
      [.text ("," ++ words ++ " "), .name (constraintName collection c.field ending), .text "(",
        .name c.field, .text ")"]
    | none => []
  | .separate => []

/-- The indexes of a column that are commands of their own. -/
def separateIndexes (d : Dialect) (collection : CollectionRef) (c : Column) : List Fragment :=
  match d.indexStyle with
  | .inline => []
  | .separate => c.options.filterMap fun o =>
    (indexKind o).map fun (ending, words) =>
      [.text ("CREATE " ++ words ++ " IF NOT EXISTS "),
        .name (constraintName collection c.field ending), .text " ON "] ++ d.table collection ++
        [.text "(", .name c.field, .text ");"]

/-- One column. -/
def columnDefinition (d : Dialect) (collection : CollectionRef) (c : Column) :
    Except QueryError Fragment :=
  if c.field.isEmpty then .error .missingField
  else match d.types c.dataType with
    | none => .error (.unsupported d.name (.dataType c.dataType))
    | some t =>
      let unique :=
        if d.primaryKeyUnique && c.has .primaryKey && !c.has .unique then [Piece.text " UNIQUE"]
        else []
      .ok ([.name c.field, .text " "] ++ columnType d c t ++ c.options.flatMap (columnOption d) ++
        unique ++ inlineIndexes d collection c)

/-- What follows from a change, unless it is what the database does anyway. -/
def referenceAction (event : String) : Option ForeignKeyAction → Fragment
  | none | some .default => []
  | some a => [.text (" ON " ++ event ++ " " ++ a.keyword)]

/-- One foreign key. -/
def foreignKey (d : Dialect) (collection : CollectionRef) (field : String) (key : ForeignKey) :
    Except QueryError Fragment :=
  if field.isEmpty || key.field.isEmpty then .error .missingField
  else .ok ([.text "CONSTRAINT ", .name (constraintName collection field "fk"),
    .text " FOREIGN KEY(", .name field, .text ") REFERENCES "] ++ d.table key.collection ++
    [.text "(", .name key.field, .text ")"] ++ referenceAction "DELETE" key.onDelete ++
    referenceAction "UPDATE" key.onUpdate)

/-- One line of the definition of a table. -/
def definition (d : Dialect) (collection : CollectionRef) : Definition → Except QueryError Fragment
  | .column c => columnDefinition d collection c
  | .foreignKey field key => foreignKey d collection field key

/-- The commands that a line of the definition adds after the table. -/
def afterDefinition (d : Dialect) (collection : CollectionRef) : Definition → List Fragment
  | .column c => separateIndexes d collection c
  | .foreignKey _ _ => []

end Sql

end QueryLayer
