import EntitySql.Migration.Querier
/-!
# Connections to SQLite

The rules by which a pooled connection is used: transactions do not nest, a connection with an open
transaction is not given back, and a connection that was given back or closed does nothing any more. The
database behind the connection is abstract.
-/

namespace EntitySql.Sqlite

/-- What is known of a connection in front of the database `δ`. -/
structure Connection (δ : Type) where
  /-- Whether the connection is still there to be used. -/
  attached : Bool := true
  /-- Whether a transaction is open. -/
  inTransaction : Bool := false
  database : δ
deriving DecidableEq, Repr

/-- A database that answers statements. -/
structure Backend (δ : Type) where
  /-- Answers a statement. -/
  send : String → Action δ (List Row)
  /-- Closes the connection. -/
  close : Action δ Unit := pure ()

namespace Connection

variable {δ α : Type}

/-- Does something to the database behind the connection. -/
def lift (action : Action δ α) : Action (Connection δ) α := fun c =>
  let (outcome, database) := action c.database
  (outcome, { c with database })

/-- Fails once the connection is gone. -/
def requireAttached : Action (Connection δ) Unit := do
  if !(← get).attached then throw .released

/-- Answers a statement, as long as the connection is there. -/
def send (b : Backend δ) (sql : String) : Action (Connection δ) (List Row) := do
  requireAttached
  lift (b.send sql)

/-- Runs a statement for what it does. -/
def run (b : Backend δ) (sql : String) : Action (Connection δ) Unit := do
  let _ ← send b sql

/-- Opens a transaction. -/
def beginTransaction (b : Backend δ) : Action (Connection δ) Unit := do
  if (← get).inTransaction then throw .pendingTransaction
  run b Dialect.sqlite.beginCommand
  modify fun c => { c with inTransaction := true }

/-- Ends the open transaction by the given statement. -/
def endTransaction (b : Backend δ) (sql : String) : Action (Connection δ) Unit := do
  if !(← get).inTransaction then throw .noActiveTransaction
  run b sql
  modify fun c => { c with inTransaction := false }

/-- Gives the connection back. -/
def release : Action (Connection δ) Unit := do
  if (← get).inTransaction then throw .pendingTransaction
  requireAttached
  modify fun c => { c with attached := false }

/-- Closes the connection and with it the open transaction. -/
def discard (b : Backend δ) : Action (Connection δ) Unit := do
  requireAttached
  modify fun c => { c with attached := false, inTransaction := false }
  lift b.close

/-- The querier on a connection. -/
def querier (b : Backend δ) : Querier (Connection δ) where
  kind := .sql .sqlite
  isOpen c := c.inTransaction
  all := send b
  run := run b
  beginTransaction := beginTransaction b
  commitTransaction := endTransaction b "COMMIT"
  rollbackTransaction := endTransaction b "ROLLBACK"
  release := release
  discard := discard b

end Connection

end EntitySql.Sqlite
