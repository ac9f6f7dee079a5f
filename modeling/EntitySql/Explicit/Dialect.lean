import EntitySql.Dialect
import EntitySql.Json.Access
/-!
# Dialects in explicit form

What there is to know of a dialect, for whoever has to choose one.
-/

namespace EntitySql.Dialect

/-- The word for a way to spell columns that count up by themselves. -/
def SerialStyle.word : SerialStyle → String
  | .serialType => "Serial"
  | .autoIncrement => "AutoIncrement"
  | .integerKey => "IntegerAutoincrement"

/-- Writes what a dialect is able to do. -/
def featuresToExplicit (d : Dialect) : Json :=
  .object [("kind", .string d.name), ("quote", .string (String.singleton d.quoteChar)),
    ("serial", .string d.serialStyle.word), ("tableIfNotExists", .bool d.tableIfNotExists),
    ("indexIfNotExists", .bool d.indexIfNotExists), ("dropCascade", .bool d.dropCascade),
    ("alterForeignKeys", .bool d.alterForeignKeys), ("columnComments", .bool d.columnComments),
    ("tableOptions", Json.ofOption .string d.tableOptions?)]

/-- Writes a dialect. -/
def toExplicit (d : Dialect) : Json :=
  .object [("name", .string d.name), ("kind", .string d.name),
    ("quote", .string (String.singleton d.quoteChar)), ("begin", .string d.beginCommand),
    ("regex", .string d.regexOperator), ("unboundedLimit", Json.ofOption .string d.unboundedLimit?),
    ("features", d.featuresToExplicit)]

end EntitySql.Dialect
