import EntitySql.Dialect
import EntitySql.Schema.ColumnType.Spelling
/-!
# Column types in a dialect

How a dialect spells a column type, how the type is read back from what the database reports, and which
part of a type survives being stored.
-/

namespace EntitySql.ColumnType

/-- The dialect's word for an integer of the given size. -/
def integerWord (d : Dialect) : IntegerSize → String
  | .tiny => if d = .postgres then "SMALLINT" else "TINYINT"
  | .small => "SMALLINT"
  | .medium => if d = .postgres then "INTEGER" else "MEDIUMINT"
  | .regular => if d.isMySqlLike then "INT" else "INTEGER"
  | .big => "BIGINT"

/-- The dialect's spelling of the type without its sign. -/
def baseSql (t : ColumnType) (d : Dialect) : String :=
  match t.category with
  | .integer => integerWord d t.size
  | .float => if d.isMySqlLike then "FLOAT" else "REAL"
  | .double => if d = .postgres then "DOUBLE PRECISION" else "DOUBLE"
  | .decimal =>
    match t.precision?, t.scale? with
    | some p, some s => withNumbers "DECIMAL" [p, s]
    | some p, none => withNumbers "DECIMAL" [p]
    | none, _ => "DECIMAL"
  | .string => withNumbers "VARCHAR" [t.length?.getD 255]
  | .text => "TEXT"
  | .boolean => if d.isMySqlLike then "TINYINT(1)" else "BOOLEAN"
  | .date => "DATE"
  | .time => if t.withTimezone && d = .postgres then "TIMETZ" else "TIME"
  | .timestamp => if t.withTimezone && !d.isMySqlLike then "TIMESTAMPTZ" else "TIMESTAMP"
  | .json => if d = .postgres then "JSONB" else "JSON"
  | .uuid => if d.isMySqlLike then "CHAR(36)" else "UUID"
  | .blob => if d = .postgres then "BYTEA" else "BLOB"
  | .vector =>
    if d.isMySqlLike then "JSON"
    else (t.length?.map fun n => withNumbers "VECTOR" [n]).getD "VECTOR"
  | .unknown => t.raw?.getD "TEXT"

/-- The dialect's spelling of the type. Only the MySQL grammar knows unsigned numbers. -/
def toSql (t : ColumnType) (d : Dialect) : String :=
  if t.unsigned && d.isMySqlLike && t.isNumeric then t.baseSql d ++ " UNSIGNED" else t.baseSql d

/-- The type that a database reports in the dialect's spelling. Under the MySQL grammar a `CHAR(36)` holds a
UUID. -/
def ofSql (sql : String) (d : Dialect) : ColumnType :=
  let t := ofText sql
  let startsAsChar := "char(".toList.isPrefixOf ((Text.trim sql.toList).map Char.toLower)
  if d.isMySqlLike && t.category = .string && t.length? = some 36 && startsAsChar then of .uuid
  else t

/-- What is left of the type once the dialect has stored it: modifiers that it cannot express are
lost. An unknown type is left alone. -/
def stored (t : ColumnType) (d : Dialect) : ColumnType :=
  if t.category = .unknown then t else ofSql (t.toSql d) d

end EntitySql.ColumnType
