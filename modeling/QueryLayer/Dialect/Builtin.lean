import QueryLayer.Dialect.Basic

/-!
# The dialects that come with the library
-/

namespace QueryLayer

namespace Dialect

/-- The types shared by the dialects close to MySQL. -/
def commonTypes : DataType → NativeType
  | .double => .plain "DOUBLE"
  | .decimal => .plain "DECIMAL"
  | .float => .plain "REAL"
  | .integer => .plain "INTEGER"
  | .long => .sized "BIGINT" 8
  | .char => .sized "CHAR" 1
  | .string => .sized "VARCHAR" 255
  | .longText => .fixed "LONGTEXT"
  | .date => .plain "DATE"
  | .dateTime => .plain "DATETIME"
  | .timestamp => .plain "TIMESTAMP"
  | .binary => .plain "BINARY"
  | .uuid => .sized "BINARY" 16
  | .document => .fixed "LONGTEXT"
  | .boolean => .sized "BIT" 1

/-- The dialects that are written exactly like MySQL. -/
def mysqlFamily (name : String) (environment : Environment) (protocol : String)
    (port : Option UInt16) : Dialect :=
  { new name environment with
    protocol := protocol
    port := port
    quotes := ⟨'\x60', '\x60'⟩
    types := fun t => some (commonTypes t)
    replaceStyle := .replaceInto
    fullJoin := false
    createSelect := true
    engine := true }

/-- MySQL. -/
def mysql : Dialect := mysqlFamily "MySQL" .server "mysql" (some 3306)

/-- MariaDB. -/
def mariadb : Dialect := mysqlFamily "MariaDB" .server "mariadb" (some 3306)

/-- Embedded H2 in its MySQL mode. -/
def h2Portable : Dialect := mysqlFamily "H2Portable" .embedded "h2:file" none

/-- PostgreSQL. -/
def postgresql : Dialect :=
  { new "PostgreSQL" .server with
    protocol := "postgresql"
    port := some 5432
    types := fun
      | .double => some (.plain "DOUBLE PRECISION")
      | .float => some (.plain "FLOAT")
      | .long => some (.fixed "BIGINT")
      | .longText | .document => some (.fixed "TEXT")
      | .dateTime => some (.plain "TIMESTAMP")
      | .binary | .uuid => some (.fixed "BYTEA")
      | .boolean => some (.fixed "BOOLEAN")
      | t => some (commonTypes t)
    autoIncrement := .serial
    defaultStyle := .inline
    indexStyle := .separate
    primaryKeyUnique := true }

/-- Microsoft SQL Server. -/
def mssql : Dialect :=
  { new "MsSQL" .server with
    protocol := "sqlserver"
    port := some 1433
    quotes := ⟨'[', ']'⟩
    types := fun
      | .boolean => some (.fixed "BIT")
      | t => some (commonTypes t)
    autoIncrement := .keyword " IDENTITY(1,1)"
    defaultStyle := .inline
    limitStyle := .offsetFetch }

/-- SQLite. -/
def sqlite : Dialect :=
  { new "SQLite" .embedded with
    types := fun
      | .double | .float => some (.fixed "REAL")
      | .decimal => some (.fixed "NUMERIC")
      | .integer | .long | .boolean => some (.fixed "INTEGER")
      | .binary | .uuid => some (.fixed "BLOB")
      | _ => some (.fixed "TEXT")
    autoIncrement := .keyword " AUTOINCREMENT"
    defaultStyle := .inline
    indexStyle := .separate
    replaceStyle := .replaceInto
    fullJoin := false }

/-- All of them, in the order in which they are registered. -/
def builtin : List Dialect := [mysql, mariadb, postgresql, mssql, h2Portable, sqlite]

end Dialect

end QueryLayer
