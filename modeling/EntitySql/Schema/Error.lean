import EntitySql.Dialect
import EntitySql.Query.Error
/-!
# Schema errors

Why a schema cannot be built or changed.
-/

namespace EntitySql

/-- Why a schema cannot be built or changed. -/
inductive SchemaError
  /-- The dialect cannot alter a column in place. -/
  | cannotAlterColumn (dialect : Dialect) (table column : String)
  | unknownTable (name : String)
  /-- A text that names no action. -/
  | invalidAction (text : String)
  /-- The entities do not fit together. -/
  | query (error : QueryError)
deriving DecidableEq, Repr

/-- The word for the kind of an error. What is wrong with entities keeps its own word. -/
def SchemaError.kind : SchemaError → String
  | .cannotAlterColumn _ _ _ => "Unsupported"
  | .unknownTable _ => "UnknownTable"
  | .invalidAction _ => "InvalidType"
  | .query error => "Query:" ++ error.kind

/-- The wording of an error. -/
def SchemaError.message : SchemaError → String
  | .cannotAlterColumn dialect table column =>
    dialect.name ++ " does not support ALTER COLUMN on column '" ++ column ++ "' of table '" ++ table ++
      "'; recreate the table instead"
  | .unknownTable name => "unknown table: " ++ name
  | .invalidAction text => "invalid schema value: " ++ text
  | .query error => error.message

/-- A result of reading entities as a result of schema work. -/
def SchemaError.ofQuery {α : Type} : Except QueryError α → Except SchemaError α
  | .ok a => .ok a
  | .error e => .error (.query e)

end EntitySql
