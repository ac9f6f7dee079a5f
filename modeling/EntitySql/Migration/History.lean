import EntitySql.Compile.Find
import EntitySql.Compile.Write
import EntitySql.Migration.Querier
import EntitySql.Schema.Diff.Statements
import EntitySql.Schema.FromEntities
/-!
# Migration history

A history knows which migrations have been applied. It is written through the querier of the migration that
runs, so that both are committed or taken back together. `MigrationHistory.inTable` keeps it in a table of the
database, which is an entity like any other.
-/

namespace EntitySql

/-- Where the names of applied migrations are kept. -/
structure MigrationHistory (σ : Type) where
  /-- Makes sure that the history can be kept. -/
  ensure : Querier σ → Action σ Unit
  /-- The names of the applied migrations in ascending order. -/
  executed : Querier σ → Action σ (List String)
  /-- Enters a migration. -/
  add : Querier σ → String → Action σ Unit
  /-- Takes a migration out. -/
  remove : Querier σ → String → Action σ Unit
  /-- The tables that belong to the history. -/
  tables : List String := []

namespace MigrationHistory

variable {σ : Type}

/-- The usual name of the history's table. -/
def defaultTable : String := "querykit_migrations"

/-- The name of the entity behind the history's table. -/
def entityName : String := "QuerykitMigration"

/-- The entity behind the history's table, whose rows are stamped with the time `now`. -/
def entity (table now : String) : Entity :=
  let named : Entity := { name := entityName, table? := some table, id := "name" }
  (named.withField "name" { type := .string, length? := some 255, nullable := false }).withField
    "executedAt" { type := .timestamp, column? := some "executed_at", nullable := false,
                   onInsert? := some (.text now) }

/-- The registry of that entity alone. -/
def registry (table now : String) : Registry := Registry.ofList [entity table now]

/-- The compiler for statements about the history, which hold no computed fragments. -/
def compiler (d : Dialect) : Compiler :=
  { dialect := d, expander := fun name _ => .error (.unknownEntity name) }

/-- The statements that create the table, unless it exists. -/
def ensureStatements (d : Dialect) (table now : String) : Except SchemaError (List String) := do
  let schema ← (registry table now).schema
  match schema.table? table with
  | some t => return (({ table := t } : TableDefinition).statements true).map (·.render d)
  | none => .error (.unknownTable table)

/-- The statement that reads the names in ascending order. -/
def executedStatement (d : Dialect) (table now : String) : Except QueryError String := do
  let m ← (registry table now).member entityName
  let query : Query :=
    { projection? := some (.items [.field "name"]), order? := some [("name", .direction .ascending)] }
  return d.render (← (compiler d).find m query {})

/-- The statement that enters a name. -/
def addStatement (d : Dialect) (table now name : String) : Except QueryError String := do
  let m ← (registry table now).member entityName
  return d.render (← (compiler d).insert m [Assoc.ofPairs [("name", .text name)]])

/-- The statement that takes a name out. -/
def removeStatement (d : Dialect) (table now name : String) : Except QueryError String := do
  let m ← (registry table now).member entityName
  return d.render (← (compiler d).delete m (some (.id (.text name))))

/-- The history in a table. -/
def inTable (table now : String) : MigrationHistory σ where
  ensure q := do
    let d ← q.requireDialect
    q.runAll (← Action.ofSchema (ensureStatements d table now))
  executed q := do
    let d ← q.requireDialect
    let rows ← q.all (← Action.ofQuery (executedStatement d table now))
    return rows.filterMap fun row => (row.get? "name").bind Value.text?
  add q name := do
    let d ← q.requireDialect
    q.run (← Action.ofQuery (addStatement d table now name))
  remove q name := do
    let d ← q.requireDialect
    q.run (← Action.ofQuery (removeStatement d table now name))
  tables := [table]

end MigrationHistory

end EntitySql
