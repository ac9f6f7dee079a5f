import EntitySql.Decimal.Shortest
import EntitySql.Sql
/-!
# Column defaults

The value that a column takes where an insert gives none.
-/

namespace EntitySql

/-- A default of a column. -/
inductive ColumnDefault
  | null
  | boolean (b : Bool)
  /-- A whole number of 64 bits with sign. -/
  | integer (n : Int)
  | float (x : Binary64)
  | string (s : String)
  /-- An SQL expression, also as a database reports it. -/
  | expression (sql : String)
deriving DecidableEq, Repr

namespace ColumnDefault

/-- The default as SQL. -/
def toSql : ColumnDefault → Sql
  | null => [.word "NULL"]
  | boolean b => [.word (if b then "TRUE" else "FALSE")]
  | integer n => [.word (toString n)]
  | float x => [.word x.toText]
  | string s => [.standardLiteral s]
  | expression sql => [.raw sql]

/-- The text of the default, which is the same in all dialects. -/
def toText (d : ColumnDefault) : String := Dialect.sqlite.render d.toSql

end ColumnDefault

end EntitySql
