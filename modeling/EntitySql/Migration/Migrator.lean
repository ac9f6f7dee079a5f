import EntitySql.Migration.Basic
import EntitySql.Migration.History
import EntitySql.Schema.Diff.ByTable
import EntitySql.Schema.Diff.Compare
/-!
# Migrators

A migrator applies migrations and takes them back, each in a transaction of its own together with its entry
in the history, and brings the live schema in line with the entities. Every operation takes a connection and
gives it back.
-/

namespace EntitySql

/-- What a synchronization may do. -/
structure SyncOptions where
  /-- Whether columns and indexes are kept in any case. -/
  safe : Bool := true
  /-- Whether columns and indexes may be dropped, if that is safe to do. -/
  drop : Bool := false
deriving DecidableEq, Repr

/-- Whether columns and indexes are dropped. -/
def SyncOptions.isDestructive (o : SyncOptions) : Bool := !o.safe && o.drop

/-- Applies migrations and synchronizes schemas. -/
structure Migrator (σ : Type) where
  /-- Takes a new connection. -/
  acquire : Action σ Unit := pure ()
  /-- The connection that is taken. -/
  querier : Querier σ
  history : MigrationHistory σ
  /-- Reads the live schema. -/
  introspect? : Option (Querier σ → Action σ Schema) := none
  /-- The entities that the schema is synchronized with. -/
  registry : Registry := {}
  /-- The migrations in ascending order of names. -/
  migrations : List (Migration σ) := []
  /-- Tables that synchronization leaves alone. -/
  excludeTables : List String := []

namespace Migrator

variable {σ α : Type}

/-- Knows one more migration. -/
def add (m : Migrator σ) (migration : Migration σ) : Migrator σ :=
  { m with migrations := migration.insertByName m.migrations }

/-- Knows more migrations, added one after the other. -/
def addAll (m : Migrator σ) (migrations : List (Migration σ)) : Migrator σ := migrations.foldl add m

/-- Does work on a new connection and gives it back. -/
def withQuerier (m : Migrator σ) (work : Querier σ → Action σ α) : Action σ α := do
  m.acquire
  m.querier.releaseAfter (work m.querier)

/-- The names of the applied migrations. -/
def readHistory (m : Migrator σ) (q : Querier σ) : Action σ (List String) := do
  m.history.ensure q
  m.history.executed q

/-- The names of the applied migrations. -/
def executed (m : Migrator σ) : Action σ (List String) := m.withQuerier m.readHistory

/-- The known migrations that are not among the applied ones. -/
def pendingAmong (m : Migrator σ) (applied : List String) : List (Migration σ) :=
  m.migrations.filter fun migration => !applied.contains migration.name

/-- The known migrations that are not applied. -/
def pending (m : Migrator σ) : Action σ (List (Migration σ)) := do
  return m.pendingAmong (← m.executed)

/-- The migrations that a call can run, in the order in which it does. -/
def candidates (m : Migrator σ) (direction : MigrationDirection) (applied : List String) :
    List (Migration σ) :=
  match direction with
  | .up => m.pendingAmong applied
  | .down => m.migrations.reverse.filter fun migration => applied.contains migration.name

/-- Runs a migration and keeps the history in line, in one transaction. -/
def runStep (m : Migrator σ) (q : Querier σ) (direction : MigrationDirection)
    (migration : Migration σ) : Action σ Unit :=
  q.transactional .required do
    migration.run direction q
    match direction with
    | .up => m.history.add q migration.name
    | .down => m.history.remove q migration.name

/-- Runs migrations one after the other up to the first that fails. -/
def runSteps (m : Migrator σ) (q : Querier σ) (direction : MigrationDirection) :
    List (Migration σ) → Action σ (List MigrationStep)
  | [] => return []
  | migration :: rest => do
    match ← (m.runStep q direction migration).attempt with
    | .ok _ =>
      let steps ← runSteps m q direction rest
      return { name := migration.name, direction, error? := none } :: steps
    | .error e => return [{ name := migration.name, direction, error? := some e }]

/-- Runs the migrations within the bounds on an open connection. -/
def migrateWith (m : Migrator σ) (q : Querier σ) (direction : MigrationDirection)
    (bounds : MigrationBounds) : Action σ (List MigrationStep) := do
  let applied ← m.readHistory q
  let selected ← ExceptT.mk (pure (bounds.select (m.candidates direction applied)))
  m.runSteps q direction selected

/-- Runs the migrations within the bounds. Only a querier that understands SQL can do it. -/
def migrate (m : Migrator σ) (direction : MigrationDirection) (bounds : MigrationBounds) :
    Action σ (List MigrationStep) :=
  m.withQuerier fun q =>
    match q.kind with
    | .sql _ => m.migrateWith q direction bounds
    | .document => throw .requiresSql

/-- Applies migrations in ascending order of names. -/
def up (m : Migrator σ) (bounds : MigrationBounds) : Action σ (List MigrationStep) :=
  m.migrate .up bounds

/-- Takes migrations back, the greatest name first. -/
def down (m : Migrator σ) (bounds : MigrationBounds) : Action σ (List MigrationStep) :=
  m.migrate .down bounds

/-- The tables that synchronization leaves alone. -/
def excludedTables (m : Migrator σ) : List String := m.history.tables ++ m.excludeTables

/-- The differences between the schema of the entities and the live one, by table. -/
def tableDiffs (m : Migrator σ) (q : Querier σ) (options : SyncOptions) : Action σ (List TableDiff) := do
  match m.introspect? with
  | none => throw (.config .noIntrospector)
  | some introspect =>
    let declared ← Action.ofSchema m.registry.schema
    let desired :=
      match q.kind.dialect? with
      | some d => declared.normalizeTypes d
      | none => declared
    let current ← introspect q
    let diffs := (Schema.diff desired current { excludeTables := m.excludedTables }).tableDiffs
    let allowed := if options.isDestructive then diffs else diffs.map TableDiff.withoutDrops
    return allowed.filter fun t => !t.isEmpty

/-- The statements of differences, which may be more than the dialect can express. -/
def statementsOf (d : Dialect) (diffs : List TableDiff) : Except SchemaError (List String) := do
  let statements ← diffs.mapM (·.statements d)
  return statements.flatten.map (·.render d)

/-- The statements of a synchronization. -/
def syncStatements (m : Migrator σ) (q : Querier σ) (options : SyncOptions) : Action σ (List String) := do
  let diffs ← m.tableDiffs q options
  match q.kind with
  | .sql d => Action.ofSchema (statementsOf d diffs)
  | .document => return diffs.flatMap fun t => t.commands.map (·.toStatement)

/-- Runs SQL statements in one transaction. -/
def applyStatements (q : Querier σ) (statements : List String) : Action σ Unit :=
  q.transactional .required (q.runStatements statements)

/-- Brings the live schema in line with the entities. The result are the statements; there are none if the
schema is in line. -/
def autoSync (m : Migrator σ) (options : SyncOptions) : Action σ (List String) :=
  m.withQuerier fun q => do
    let statements ← m.syncStatements q options
    if !statements.isEmpty then
      match q.kind with
      | .sql _ => applyStatements q statements
      | .document => q.runDocumentStatements statements
    return statements

/-- The statements that a synchronization would run. -/
def diffStatements (m : Migrator σ) (options : SyncOptions) : Action σ (List String) :=
  m.withQuerier fun q => m.syncStatements q options

/-- The statements that drop all tables of the entities, referencing ones first, and create them again. -/
def recreateStatements (m : Migrator σ) (d : Dialect) : Except SchemaError (List String) := do
  let desired ← m.registry.schema
  let tables := desired.sortedTables.filter fun t => !m.excludedTables.contains t.name
  let drops : List Ddl := tables.reverse.map fun t => .dropTable t.name true true
  let creates := tables.flatMap fun t =>
    ({ table := t, foreignKeys := desired.outgoing t } : TableDefinition).statements false
  return (drops ++ creates).map (·.render d)

/-- Drops all tables of the entities with their rows and creates them again. -/
def syncForce (m : Migrator σ) : Action σ (List String) :=
  m.withQuerier fun q => do
    let d ← q.requireDialect
    let statements ← Action.ofSchema (m.recreateStatements d)
    applyStatements q statements
    return statements

end Migrator

end EntitySql
