import EntitySql.Explicit.Entity
import EntitySql.Migration.Config
import EntitySql.Migration.Migrator
import EntitySql.Migration.Recording
/-!
# Sessions in explicit form

Scripts of recorded sessions, the actions that run in them, and the settings and outcomes of migrators.
-/

namespace EntitySql

/-- Reads a record, which a row of a result is too. -/
def Assoc.ofExplicit (j : Json) : Assoc Value :=
  Assoc.ofPairs ((j.object?.getD []).map fun (key, value) => (key, Value.ofExplicit value))

/-- The dialect of the name, or the first one. -/
def Dialect.ofExplicit (name : String) : Dialect := (Dialect.ofText name).toOption.getD .postgres

/-- What a querier of the name understands. -/
def QuerierKind.ofExplicit : Option String → QuerierKind
  | none => .sql .sqlite
  | some "document" => .document
  | some name => .sql (Dialect.ofExplicit name)

/-- Reads the script of a session. -/
def SessionScript.ofExplicit (j : Json) : SessionScript where
  kind := QuerierKind.ofExplicit (j.textAt? "kind")
  rows := ((j.get "rows").object?.getD []).map fun (sql, rows) => (sql, rows.items.map Assoc.ofExplicit)
  failOn := j.textsAt "failOn"
  commands := (j.flagAt? "commands").getD true

/-- Reads how work joins a transaction. -/
def Propagation.ofExplicit (j : Json) : Propagation :=
  if j.textAt? "propagation" = some "supported" then .supported else .required

/-- Reads what a synchronization may do. -/
def SyncOptions.ofExplicit (j : Json) : SyncOptions where
  safe := (j.flagAt? "safe").getD true
  drop := j.flagAt "drop"

/-- Reads how far a call goes. -/
def MigrationBounds.ofExplicit (j : Json) : MigrationBounds where
  last? := j.textAt? "to"
  count? := j.natAt? "step"

/-- Writes the outcome of a step. -/
def MigrationStep.toExplicit (s : MigrationStep) : Json :=
  .object [("name", .string s.name), ("direction", .string s.direction.word),
    ("success", .bool s.success),
    ("error", Json.ofOption (fun e => .string (MigrationError.message e)) s.error?)]

/-- Does what a list of at most the given depth says, up to the first failure: a text is a statement or a
word of control, and an object is work in a transaction whose failure may be caught. -/
def Querier.perform {σ : Type} (q : Querier σ) : Nat → List Json → Action σ Unit
  | 0, _ => pure ()
  | depth + 1, body =>
    body.forM fun j =>
      match j with
      | .string "@begin" => q.beginTransaction
      | .string "@commit" => q.commitTransaction
      | .string "@rollback" => q.rollbackTransaction
      | .string "@fail" => throw (.config (.other "failed on purpose"))
      | .string sql => q.run sql
      | j => do
        let work := q.transactional (Propagation.ofExplicit j) (q.perform depth (j.itemsAt "body"))
        let outcome ← work.attempt
        if !j.flagAt "catch" then ExceptT.mk (pure outcome)

/-- Does what the list under the key says. -/
def Querier.performAt {σ : Type} (q : Querier σ) (j : Json) (key : String) : Action σ Unit :=
  q.perform j.depth (j.itemsAt key)

/-- Reads a migration: two lists of statements, or of actions. -/
def Migration.ofExplicit {σ : Type} (j : Json) : Migration σ :=
  if j.flagAt "custom" then
    { name := j.textAt "name", up := fun q => q.performAt j "up", down := fun q => q.performAt j "down" }
  else .ofStatements (j.textAt "name") (j.textsAt "up") (j.textsAt "down")

/-- The name of a naming style. -/
def NamingStyle.word (style : NamingStyle) : String :=
  ((NamingStyle.named.find? fun (_, other) => other = style).map Prod.fst).getD ""

/-- Writes settings, with the names of the tables and columns that they lead to. -/
def MigrationConfig.toExplicit (c : MigrationConfig) : Json :=
  let names (e : Entity) : Json :=
    let m : Member := ⟨c.registry, e⟩
    .array [.string m.tableName, Json.ofStrings (e.fields.keys.map m.columnName)]
  .object [("databaseUrl", Json.ofOption .string c.databaseUrl?), ("dialect", .string c.dialect.name),
    ("migrationsTable", .string c.historyTable), ("excludeTables", Json.ofStrings c.excludeTables),
    ("naming", .string c.naming.word), ("entities", Json.ofList Entity.toExplicit c.entities),
    ("tables", Json.ofList names c.entities)]

end EntitySql
