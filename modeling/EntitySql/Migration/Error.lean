import EntitySql.Schema.Error
/-!
# Migration errors

Why a migration, a synchronization or a configuration fails.
-/

namespace EntitySql

/-- What is wrong with the way in which things are set up. -/
inductive ConfigFault
  /-- The history has no table. -/
  | emptyHistoryTable
  | duplicateEntity (entity : String)
  /-- The id of an entity is none of its fields. -/
  | missingId (entity id : String)
  /-- Nothing can read the live schema. -/
  | noIntrospector
  /-- Any other fault in its own words. -/
  | other (text : String)
deriving DecidableEq, Repr

/-- The wording of a fault. -/
def ConfigFault.message : ConfigFault → String
  | .emptyHistoryTable => "migrationsTable must not be empty"
  | .duplicateEntity entity => "entity '" ++ entity ++ "' is declared twice"
  | .missingId entity id => "entity '" ++ entity ++ "' has no id field '" ++ id ++ "'"
  | .noIntrospector => "schema synchronization needs an introspector"
  | .other text => text

/-- Why a migration, a synchronization or a configuration fails. -/
inductive MigrationError
  /-- The database refused. -/
  | database (text : String)
  | query (error : QueryError)
  | schema (error : SchemaError)
  /-- A text is not what it has to be. -/
  | serialization
  /-- A file cannot be read. -/
  | io
  /-- No migration of that name can run. -/
  | notFound (name : String)
  /-- Something that only SQL can do was asked of a document store. -/
  | requiresSql
  /-- A transaction is still open. -/
  | pendingTransaction
  /-- No transaction is open. -/
  | noActiveTransaction
  /-- The connection has been given back. -/
  | released
  /-- A command leaves its collection open. -/
  | missingCollection (action : String)
  | unsupportedCommand (action : String)
  | config (fault : ConfigFault)
deriving DecidableEq, Repr

namespace MigrationError

/-- The word for the kind of an error. What is wrong with queries and schemas keeps its own word. -/
def kind : MigrationError → String
  | database _ => "Database"
  | query error => "Query:" ++ error.kind
  | schema error => "Schema:" ++ error.kind
  | serialization => "Serialization"
  | io => "Io"
  | notFound _ => "NotFound"
  | requiresSql => "RequiresSqlQuerier"
  | pendingTransaction => "PendingTransaction"
  | noActiveTransaction => "NoActiveTransaction"
  | released => "ReleasedQuerier"
  | missingCollection _ => "MissingCollection"
  | unsupportedCommand _ => "UnsupportedCommand"
  | config _ => "Config"

/-- The wording of an error. -/
def message : MigrationError → String
  | database text => "Database error: " ++ text
  | query error => error.message
  | schema error => error.message
  | serialization => "Serialization error"
  | io => "IO error"
  | notFound name => "Migration '" ++ name ++ "' not found"
  | requiresSql => "This operation requires a SQL-based querier"
  | pendingTransaction => "Cannot release a querier with a pending transaction"
  | noActiveTransaction => "There is no active transaction"
  | released => "Querier has already been released"
  | missingCollection action => "Command '" ++ action ++ "' has no target collection"
  | unsupportedCommand action => "Unsupported command '" ++ action ++ "'"
  | config fault => "Configuration error: " ++ fault.message

end MigrationError

end EntitySql
