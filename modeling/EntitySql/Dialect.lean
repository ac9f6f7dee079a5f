import EntitySql.Text.LetterCase
/-!
# SQL dialects

The four database systems and what sets them apart: how names are quoted, which spellings they use and
what their schema statements can do.
-/

namespace EntitySql

/-- A supported database system. -/
inductive Dialect
  | postgres
  | mysql
  | mariadb
  | sqlite
deriving DecidableEq, Repr, Inhabited

namespace Dialect

/-- All dialects. -/
def all : List Dialect := [postgres, mysql, mariadb, sqlite]

/-- The identifier of a dialect. -/
def name : Dialect → String
  | postgres => "postgres"
  | mysql => "mysql"
  | mariadb => "mariadb"
  | sqlite => "sqlite"

/-- The dialect that a text names, in any case of letters. What is not a name comes back in lower
case. -/
def ofText (text : String) : Except String Dialect :=
  match Text.asciiLowered text with
  | "postgres" | "postgresql" | "pg" => .ok postgres
  | "mysql" => .ok mysql
  | "mariadb" | "maria" => .ok mariadb
  | "sqlite" | "sqlite3" => .ok sqlite
  | other => .error other

/-- The wording for a text that names no dialect. -/
def unknownMessage (text : String) : String := "unknown dialect '" ++ text ++ "'"

/-- Whether the dialect has the grammar of MySQL. -/
def isMySqlLike : Dialect → Bool
  | mysql | mariadb => true
  | postgres | sqlite => false

/-- The character around quoted names. -/
def quoteChar (d : Dialect) : Char := if d.isMySqlLike then '`' else '"'

/-- The statement that opens a transaction. -/
def beginCommand (d : Dialect) : String :=
  if d.isMySqlLike then "START TRANSACTION" else "BEGIN TRANSACTION"

/-- The operator that matches a regular expression. -/
def regexOperator : Dialect → String
  | postgres => "~"
  | mysql | mariadb | sqlite => "REGEXP"

/-- The limit that stands for no limit where an offset may not stand alone. -/
def unboundedLimit? : Dialect → Option String
  | postgres => none
  | mysql | mariadb => some "18446744073709551615"
  | sqlite => some "-1"

/-- Whether an insert can return the generated id. -/
def returnsId : Dialect → Bool
  | postgres | mariadb => true
  | mysql | sqlite => false

/-- How a column that counts up by itself is spelled. -/
inductive SerialStyle
  /-- A type of its own, such as `SERIAL`. -/
  | serialType
  /-- The word `AUTO_INCREMENT` behind the type. -/
  | autoIncrement
  /-- The words `INTEGER PRIMARY KEY AUTOINCREMENT`. -/
  | integerKey
deriving DecidableEq, Repr

/-- The spelling of columns that count up by themselves. -/
def serialStyle : Dialect → SerialStyle
  | postgres => .serialType
  | mysql | mariadb => .autoIncrement
  | sqlite => .integerKey

/-- Whether `CREATE TABLE` knows `IF NOT EXISTS`. -/
def tableIfNotExists (_ : Dialect) : Bool := true

/-- Whether `CREATE INDEX` knows `IF NOT EXISTS`. -/
def indexIfNotExists : Dialect → Bool
  | mysql => false
  | postgres | mariadb | sqlite => true

/-- Whether `DROP TABLE` knows `CASCADE`. -/
def dropCascade : Dialect → Bool
  | postgres => true
  | mysql | mariadb | sqlite => false

/-- Whether foreign keys can be added and dropped after their table was created. -/
def alterForeignKeys : Dialect → Bool
  | sqlite => false
  | postgres | mysql | mariadb => true

/-- Whether columns and tables take comments in their definitions. -/
def columnComments (d : Dialect) : Bool := d.isMySqlLike

/-- What follows the definition in `CREATE TABLE`. -/
def tableOptions? (d : Dialect) : Option String :=
  if d.isMySqlLike then some " ENGINE=InnoDB" else none

end Dialect

end EntitySql
