import EntitySql.Migration.Error
import EntitySql.Schema.DocumentCommand
import EntitySql.Value
/-!
# Queriers

A querier stands for one connection to a database. What it does are actions on a state `σ`, which holds
the connection and everything behind it. An action that fails still changes the state.
-/

namespace EntitySql

/-- Something that is done to the world behind a connection and that may fail. -/
abbrev Action (σ α : Type) := ExceptT MigrationError (StateM σ) α

namespace Action

variable {σ α : Type}

/-- Does the action and gives its outcome, whichever it is. -/
def attempt (action : Action σ α) : Action σ (Except MigrationError α) := fun s =>
  let (outcome, s) := action s
  (.ok outcome, s)

/-- The result that a query error prevents. -/
def ofQuery (result : Except QueryError α) : Action σ α :=
  match result with
  | .ok a => pure a
  | .error e => throw (.query e)

/-- The result that a schema error prevents. -/
def ofSchema (result : Except SchemaError α) : Action σ α :=
  match result with
  | .ok a => pure a
  | .error e => throw (.schema e)

end Action

/-- A row of a result: values by column name. -/
abbrev Row := Assoc Value

/-- What a querier understands. -/
inductive QuerierKind
  | sql (dialect : Dialect)
  /-- Commands of a document store. -/
  | document
deriving DecidableEq, Repr

/-- One connection. -/
structure Querier (σ : Type) where
  kind : QuerierKind
  /-- Whether a transaction is open. -/
  isOpen : σ → Bool
  /-- The rows of a query. -/
  all : String → Action σ (List Row)
  /-- Runs a statement for what it does. -/
  run : String → Action σ Unit
  beginTransaction : Action σ Unit
  commitTransaction : Action σ Unit
  rollbackTransaction : Action σ Unit
  /-- Gives the connection back. It is refused while a transaction is open. -/
  release : Action σ Unit
  /-- Closes the connection in place of giving it back. -/
  discard : Action σ Unit := pure ()
  /-- Runs a command of a document store. -/
  runCommand : DocumentCommand → Action σ Unit := fun c => throw (.unsupportedCommand c.action)

namespace QuerierKind

/-- The dialect of a querier that understands SQL. -/
def dialect? : QuerierKind → Option Dialect
  | sql dialect => some dialect
  | document => none

end QuerierKind

namespace Querier

variable {σ α : Type}

/-- The dialect, which only a querier that understands SQL has. -/
def requireDialect (q : Querier σ) : Action σ Dialect :=
  match q.kind with
  | .sql dialect => pure dialect
  | .document => throw .requiresSql

/-- Does the work and gives the connection back. A connection that cannot be given back is discarded. The
error of the work counts before that of giving back. -/
def releaseAfter (q : Querier σ) (work : Action σ α) : Action σ α := do
  let outcome ← work.attempt
  match ← q.release.attempt with
  | .ok _ => ExceptT.mk (pure outcome)
  | .error refusal =>
    let _ ← q.discard.attempt
    match outcome with
    | .ok _ => throw refusal
    | .error e => throw e

/-- Runs statements in order up to the first that fails. -/
def runAll (q : Querier σ) (statements : List String) : Action σ Unit := statements.forM q.run

/-- Whether the statement is only a comment. -/
def isComment (statement : String) : Bool := "--".toList.isPrefixOf statement.toList

/-- Runs statements in order and passes over comments. -/
def runStatements (q : Querier σ) (statements : List String) : Action σ Unit :=
  q.runAll (statements.filter fun statement => !isComment statement)

/-- The command that a statement writes, which has to name its collection. -/
def readCommand (statement : String) : Except MigrationError DocumentCommand :=
  match DocumentCommand.ofText? statement with
  | none => .error .serialization
  | some c => if c.collection?.isNone then .error (.missingCollection c.action) else .ok c

/-- Runs statements as commands of a document store. All of them are read before the first one runs. -/
def runDocumentStatements (q : Querier σ) (statements : List String) : Action σ Unit := do
  let commands ← ExceptT.mk (pure (statements.mapM readCommand))
  commands.forM q.runCommand

end Querier

end EntitySql
