import EntitySql.Entity.Decoder
import EntitySql.Entity.Registry
import EntitySql.Migration.History
import EntitySql.Text.Blank
/-!
# Configuration

The settings of a migrator, written as a JSON object. Computed fields and supplied values cannot be
written.
-/

namespace EntitySql

/-- A naming that a configuration can ask for. -/
inductive NamingStyle
  /-- Names are the keys themselves. -/
  | default
  | snakeCase
deriving DecidableEq, Repr

namespace NamingStyle

/-- All styles with their names. -/
def named : List (String × NamingStyle) := [("default", default), ("snakeCase", snakeCase)]

/-- The naming of a style. -/
def naming : NamingStyle → Naming
  | default => .verbatim
  | snakeCase => .snakeCase

end NamingStyle

/-- The settings of a migrator. -/
structure MigrationConfig where
  databaseUrl? : Option String := none
  dialect : Dialect := .sqlite
  /-- The table of the history. -/
  historyTable : String := MigrationHistory.defaultTable
  /-- Tables that synchronization leaves alone. -/
  excludeTables : List String := []
  naming : NamingStyle := .default
  entities : List Entity := []

namespace MigrationConfig

open Json

/-- Reads settings without checking whether they fit together. -/
def decode : Decoder MigrationConfig := fun d => do
  let fields ← Fields.of?
    ["databaseUrl", "dialect", "migrationsTable", "excludeTables", "naming", "entities"] d
  return {
    databaseUrl? := ← fields.optional "databaseUrl" Decoder.string
    dialect := ← fields.withDefault "dialect"
      (Decoder.named (Dialect.all.map fun dialect => (dialect.name, dialect))) .sqlite
    historyTable := ← fields.withDefault "migrationsTable" Decoder.string MigrationHistory.defaultTable
    excludeTables := ← fields.withDefault "excludeTables" (Decoder.list Decoder.string) []
    naming := ← fields.withDefault "naming" (Decoder.named NamingStyle.named) .default
    entities := ← fields.withDefault "entities" (Decoder.list Entity.decode) [] }

/-- The first fault among entities that follow entities of the given names. -/
def entityFault? (names : List String) : List Entity → Option ConfigFault
  | [] => none
  | e :: rest =>
    if names.contains e.name then some (.duplicateEntity e.name)
    else if !e.hasField e.id then some (.missingId e.name e.id)
    else entityFault? (e.name :: names) rest

/-- What keeps the settings from fitting together, if anything does. -/
def fault? (c : MigrationConfig) : Option ConfigFault :=
  if (Text.trim c.historyTable.toList).isEmpty then some .emptyHistoryTable
  else entityFault? [] c.entities

/-- The settings that a text writes. -/
def ofText (text : String) : Except MigrationError MigrationConfig :=
  match (Document.ofText? text).bind decode with
  | none => .error .serialization
  | some c =>
    match c.fault? with
    | some fault => .error (.config fault)
    | none => .ok c

/-- The registry of the configured entities. -/
def registry (c : MigrationConfig) : Registry :=
  { Registry.ofList c.entities with naming := c.naming.naming }

end MigrationConfig

end EntitySql
