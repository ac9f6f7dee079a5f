import EntitySql.Entity.Decoder
import EntitySql.Json.Access
import EntitySql.Schema.Diff.Basic
/-!
# Schemas in JSON

How schemas and their differences are written in JSON, and how schemas are read back. Members are written in
the order in which this module lists them. Modifiers that a column type lacks are not written; what is absent
elsewhere is written as `null`.
-/

namespace EntitySql

open Json

/-- The first name of a value. -/
def nameIn {α : Type} [DecidableEq α] (names : List (String × α)) (a : α) : String :=
  ((names.find? fun (_, value) => value = a).map Prod.fst).getD ""

namespace ColumnType

/-- A modifier as a member, if it is present. -/
def modifierMember {α : Type} (name : String) (write : α → Json) (a? : Option α) :
    List (String × Json) :=
  (a?.map fun a => (name, write a)).toList

/-- A column type in JSON. -/
def toJson (t : ColumnType) : Json :=
  .object ([("category", .string (nameIn TypeCategory.named t.category))] ++
    modifierMember "size" (fun size => .string (nameIn IntegerSize.named size)) t.size? ++
    modifierMember "length" Json.ofUInt32 t.length? ++ modifierMember "precision" Json.ofUInt32 t.precision? ++
    modifierMember "scale" Json.ofUInt32 t.scale? ++
    [("unsigned", .bool t.unsigned), ("withTimezone", .bool t.withTimezone)] ++
    modifierMember "raw" .string t.raw?)

/-- Reads a column type. -/
def decode : Decoder ColumnType := fun d => do
  let fields ← Fields.of? ["category", "size", "length", "precision", "scale", "unsigned",
    "withTimezone", "raw"] d
  return {
    category := ← fields.required "category" (Decoder.named TypeCategory.named)
    size? := ← fields.optional "size" (Decoder.named IntegerSize.named)
    length? := ← fields.optional "length" Decoder.uint32
    precision? := ← fields.optional "precision" Decoder.uint32
    scale? := ← fields.optional "scale" Decoder.uint32
    unsigned := ← fields.withDefault "unsigned" Decoder.bool false
    withTimezone := ← fields.withDefault "withTimezone" Decoder.bool false
    raw? := ← fields.optional "raw" Decoder.string }

end ColumnType

namespace Column

/-- A column in JSON. -/
def toJson (c : Column) : Json :=
  .object [("name", .string c.name), ("table", .string c.table), ("type", c.type.toJson),
    ("nullable", .bool c.nullable), ("isPrimaryKey", .bool c.isPrimaryKey),
    ("isAutoIncrement", .bool c.isAutoIncrement), ("isUnique", .bool c.isUnique),
    ("defaultValue", Json.ofOption ColumnDefault.toJson c.default?),
    ("comment", Json.ofOption .string c.comment?)]

/-- Reads a column. -/
def decode : Decoder Column := fun d => do
  let fields ← Fields.of? ["name", "table", "type", "nullable", "isPrimaryKey", "isAutoIncrement",
    "isUnique", "defaultValue", "comment"] d
  return {
    name := ← fields.required "name" Decoder.string
    table := ← fields.required "table" Decoder.string
    type := ← fields.required "type" ColumnType.decode
    nullable := ← fields.required "nullable" Decoder.bool
    isPrimaryKey := ← fields.required "isPrimaryKey" Decoder.bool
    isAutoIncrement := ← fields.required "isAutoIncrement" Decoder.bool
    isUnique := ← fields.required "isUnique" Decoder.bool
    default? := ← fields.optionalKey "defaultValue" ColumnDefault.decode
    comment? := ← fields.optionalKey "comment" Decoder.string }

end Column

/-- All places where an index can be found, with their names. -/
def IndexSource.named : List (String × IndexSource) := [("entity", entity), ("database", database)]

/-- All states of an index with their names. -/
def SyncStatus.named : List (String × SyncStatus) := [("pending", pending), ("synced", synced)]

namespace Index

/-- An index in JSON. -/
def toJson (i : Index) : Json :=
  .object [("name", .string i.name), ("table", .string i.table), ("columns", Json.ofStrings i.columns),
    ("unique", .bool i.unique), ("indexType", Json.ofOption (fun m => .string m.name) i.method?),
    ("source", .string (nameIn IndexSource.named i.source)),
    ("syncStatus", .string (nameIn SyncStatus.named i.status))]

/-- Reads an index. -/
def decode : Decoder Index := fun d => do
  let fields ← Fields.of? ["name", "table", "columns", "unique", "indexType", "source", "syncStatus"] d
  return {
    name := ← fields.required "name" Decoder.string
    table := ← fields.required "table" Decoder.string
    columns := ← fields.required "columns" (Decoder.list Decoder.string)
    unique := ← fields.required "unique" Decoder.bool
    method? := ← fields.optionalKey "indexType" IndexMethod.decode
    source := ← fields.required "source" (Decoder.named IndexSource.named)
    status := ← fields.required "syncStatus" (Decoder.named SyncStatus.named) }

end Index

namespace Endpoint

/-- One side of a relationship in JSON. -/
def toJson (e : Endpoint) : Json :=
  .object [("table", .string e.table), ("columns", Json.ofStrings e.columns)]

/-- Reads one side of a relationship. -/
def decode : Decoder Endpoint := fun d => do
  let fields ← Fields.of? ["table", "columns"] d
  return {
    table := ← fields.required "table" Decoder.string
    columns := ← fields.required "columns" (Decoder.list Decoder.string) }

end Endpoint

namespace Relationship

/-- A relationship in JSON. -/
def toJson (r : Relationship) : Json :=
  .object [("name", .string r.name), ("kind", .string r.kind.code), ("from", r.referencing.toJson),
    ("to", r.referenced.toJson),
    ("onDelete", Json.ofOption (fun action => .string action.keyword) r.onDelete?),
    ("onUpdate", Json.ofOption (fun action => .string action.keyword) r.onUpdate?)]

/-- Reads a relationship. -/
def decode : Decoder Relationship := fun d => do
  let fields ← Fields.of? ["name", "kind", "from", "to", "onDelete", "onUpdate"] d
  return {
    name := ← fields.required "name" Decoder.string
    kind := ← fields.required "kind" Cardinality.decode
    referencing := ← fields.required "from" Endpoint.decode
    referenced := ← fields.required "to" Endpoint.decode
    onDelete? := ← fields.optionalKey "onDelete" ReferentialAction.decode
    onUpdate? := ← fields.optionalKey "onUpdate" ReferentialAction.decode }

end Relationship

namespace Table

/-- A table in JSON. -/
def toJson (t : Table) : Json :=
  .object [("name", .string t.name), ("columns", Json.ofAssoc Column.toJson t.columns),
    ("primaryKey", Json.ofStrings t.primaryKey), ("indexes", .array (t.indexes.map Index.toJson)),
    ("incoming", Json.ofStrings t.incoming), ("outgoing", Json.ofStrings t.outgoing),
    ("comment", Json.ofOption .string t.comment?)]

/-- Reads a table. -/
def decode : Decoder Table := fun d => do
  let fields ← Fields.of? ["name", "columns", "primaryKey", "indexes", "incoming", "outgoing",
    "comment"] d
  return {
    name := ← fields.required "name" Decoder.string
    columns := ← fields.required "columns" (Decoder.assoc Column.decode)
    primaryKey := ← fields.required "primaryKey" (Decoder.list Decoder.string)
    indexes := ← fields.required "indexes" (Decoder.list Index.decode)
    incoming := ← fields.required "incoming" (Decoder.list Decoder.string)
    outgoing := ← fields.required "outgoing" (Decoder.list Decoder.string)
    comment? := ← fields.optionalKey "comment" Decoder.string }

end Table

namespace Schema

/-- A schema in JSON. -/
def toJson (s : Schema) : Json :=
  .object [("tables", Json.ofAssoc Table.toJson s.tables),
    ("relationships", Json.ofAssoc Relationship.toJson s.relationships)]

/-- Reads a schema. -/
def decode : Decoder Schema := fun d => do
  let fields ← Fields.of? ["tables", "relationships"] d
  return {
    tables := ← fields.required "tables" (Decoder.assoc Table.decode)
    relationships := ← fields.required "relationships" (Decoder.assoc Relationship.decode) }

end Schema

namespace Change

variable {α : Type}

/-- The word for the kind of a change; `create` is the word for something that is new. -/
def kindWord (create : String) : Change α → String
  | .create _ => create
  | .drop _ => "drop"
  | .alter _ _ => "alter"

end Change

/-- The members of a difference behind its names. -/
def Difference.members {α : Type} (create : String) (write : α → Json) (d : Difference α) :
    List (String × Json) :=
  [("type", .string (d.change.kindWord create)), ("source", Json.ofOption write d.change.new?),
    ("target", Json.ofOption write d.change.old?), ("description", .string d.description)]

/-- The differences of two schemas in JSON. -/
def SchemaDiff.toJson (d : SchemaDiff) : Json :=
  .object [("tablesToCreate", .array (d.tablesToCreate.map Table.toJson)),
    ("tablesToDrop", .array (d.tablesToDrop.map Table.toJson)),
    ("columnDiffs", .array (d.columns.map fun (table, difference) =>
      .object ([("table", .string table), ("column", .string difference.name)] ++
        difference.members "add" Column.toJson))),
    ("indexDiffs", .array (d.indexes.map fun (table, difference) =>
      .object ([("table", .string table), ("name", .string difference.name)] ++
        difference.members "create" Index.toJson))),
    ("relationshipDiffs", .array (d.relationships.map fun difference =>
      .object (("name", .string difference.name) ::
        difference.members "create" Relationship.toJson)))]

/-- The change of a column in JSON. -/
def ColumnChange.toJson (c : ColumnChange) : Json :=
  .object [("from", c.old.toJson), ("to", c.new.toJson)]

/-- The definition of a table in JSON. -/
def TableDefinition.toJson (definition : TableDefinition) : Json :=
  .object [("table", definition.table.toJson),
    ("foreignKeys", .array (definition.foreignKeys.map Relationship.toJson))]

/-- The differences of one table in JSON. -/
def TableDiff.toJson (t : TableDiff) : Json :=
  let lists {α : Type} (write : α → Json) : Option (List α) → Json :=
    Json.ofOption fun list => .array (list.map write)
  let (kind, definition?, changes) :=
    match t with
    | .create _ definition? => ("create", definition?, ({} : TableChanges))
    | .alter _ changes => ("alter", none, changes)
  .object [("tableName", .string t.table), ("type", .string kind),
    ("table", Json.ofOption TableDefinition.toJson definition?),
    ("columnsToAdd", lists Column.toJson changes.addColumns?),
    ("columnsToAlter", lists ColumnChange.toJson changes.alterColumns?),
    ("columnsToDrop", lists Column.toJson changes.dropColumns?),
    ("indexesToAdd", lists Index.toJson changes.addIndexes?),
    ("indexesToDrop", lists Index.toJson changes.dropIndexes?),
    ("foreignKeysToAdd", lists Relationship.toJson changes.addForeignKeys?),
    ("foreignKeysToDrop", lists Relationship.toJson changes.dropForeignKeys?)]

end EntitySql
