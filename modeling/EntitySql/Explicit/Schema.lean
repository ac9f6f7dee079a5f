import EntitySql.Explicit.Entity
import EntitySql.Schema.ColumnType.Stored
import EntitySql.Schema.FromEntities
import EntitySql.Schema.Json
/-!
# Schemas in explicit form

Tables and relationships in few words: what is not said is as usual. A reader gives nothing where a part
that has a form of its own (a type, a default, an action) is not in that form.
-/

namespace EntitySql

/-- Reads the part under the key, if there is one. -/
def Json.partAt? {α : Type} (decode : Json.Decoder α) (j : Json) (key : String) : Option (Option α) :=
  match j.at? key with
  | some part => (decode (Json.Document.ofJson part)).map some
  | none => some none

/-- Reads the list under the key, if there is one. -/
def Json.listAt? {α : Type} (read : Json → Option α) (j : Json) (key : String) :
    Option (Option (List α)) :=
  match j.at? key with
  | some list => (list.items.mapM read).map some
  | none => some none

/-- Reads a column type from its spelling or from an object. -/
def ColumnType.ofExplicit? : Json → Option ColumnType
  | .string sql => some (ColumnType.ofText sql)
  | j => ColumnType.decode (Json.Document.ofJson j)

/-- Reads a column. A primary key is not null unless that is said. -/
def Column.ofExplicit? (j : Json) : Option Column := do
  let type ← ColumnType.ofExplicit? (j.get "type")
  let default? ← j.partAt? ColumnDefault.decode "default"
  let isPrimaryKey := j.flagAt "primaryKey"
  return {
    name := j.textAt "name", table := j.textAt "table", type, default?, isPrimaryKey
    nullable := (j.flagAt? "nullable").getD !isPrimaryKey
    isAutoIncrement := j.flagAt "autoIncrement", isUnique := j.flagAt "unique"
    comment? := j.textAt? "comment" }

/-- Reads an index. -/
def Index.ofExplicit? (j : Json) : Option Index := do
  let method? ← j.partAt? IndexMethod.decode "type"
  let index : Index :=
    { name := j.textAt "name", table := j.textAt "table", columns := j.textsAt "columns"
      unique := j.flagAt "unique", method? }
  return if j.flagAt "database" then index.fromDatabase else index

/-- Reads a table with its columns and indexes. -/
def Table.ofExplicit? (j : Json) : Option Table := do
  let columns ← (j.itemsAt "columns").mapM Column.ofExplicit?
  let indexes ← (j.itemsAt "indexes").mapM Index.ofExplicit?
  let empty : Table := { name := j.textAt "name", comment? := j.textAt? "comment" }
  let table := indexes.foldl Table.addIndex (columns.foldl Table.addColumn empty)
  return { table with primaryKey := ((j.at? "primaryKey").map Json.texts).getD table.primaryKey }

/-- Reads one side of a relationship. -/
def Endpoint.ofExplicit (j : Json) : Endpoint :=
  { table := j.textAt "table", columns := j.textsAt "columns" }

/-- Reads a relationship. -/
def Relationship.ofExplicit? (j : Json) : Option Relationship := do
  let kind? ← j.partAt? Cardinality.decode "kind"
  let onDelete? ← j.partAt? ReferentialAction.decode "onDelete"
  let onUpdate? ← j.partAt? ReferentialAction.decode "onUpdate"
  return {
    name := j.textAt "name", kind := kind?.getD .manyToOne, onDelete?, onUpdate?
    referencing := Endpoint.ofExplicit (j.get "from"), referenced := Endpoint.ofExplicit (j.get "to") }

/-- Reads a table with its foreign keys. -/
def TableDefinition.ofExplicit? (j : Json) : Option TableDefinition := do
  let table ← Table.ofExplicit? j
  let foreignKeys ← (j.itemsAt "foreignKeys").mapM Relationship.ofExplicit?
  return { table, foreignKeys }

/-- Reads a schema: tables with relationships, or the entities that it is made from. There is nothing where
a part cannot be read, and an error where the parts do not fit together. -/
def Schema.ofExplicit? (j : Json) : Option (Except SchemaError Schema) :=
  match j.at? "entities" with
  | some _ => (Registry.ofExplicit? j).map Registry.schema
  | none => do
    let tables ← (j.itemsAt "tables").mapM Table.ofExplicit?
    let relationships ← (j.itemsAt "relationships").mapM Relationship.ofExplicit?
    return relationships.foldlM Schema.addRelationship (tables.foldl Schema.addTable {})

/-- Reads the change of a column. -/
def ColumnChange.ofExplicit? (j : Json) : Option ColumnChange := do
  let old ← Column.ofExplicit? (j.get "from")
  let new ← Column.ofExplicit? (j.get "to")
  return { old, new }

/-- Reads the differences of a table. -/
def TableDiff.ofExplicit? (j : Json) : Option TableDiff := do
  let name := j.textAt "table"
  if j.flagAt "create" then
    match j.at? "definition" with
    | some t => return .create name (some (← TableDefinition.ofExplicit? t))
    | none => return .create name none
  else
    let addColumns? ← j.listAt? Column.ofExplicit? "addColumns"
    let alterColumns? ← j.listAt? ColumnChange.ofExplicit? "alterColumns"
    let dropColumns? ← j.listAt? Column.ofExplicit? "dropColumns"
    let addIndexes? ← j.listAt? Index.ofExplicit? "addIndexes"
    let dropIndexes? ← j.listAt? Index.ofExplicit? "dropIndexes"
    let addForeignKeys? ← j.listAt? Relationship.ofExplicit? "addForeignKeys"
    let dropForeignKeys? ← j.listAt? Relationship.ofExplicit? "dropForeignKeys"
    return .alter name { addColumns?, alterColumns?, dropColumns?, addIndexes?, dropIndexes?,
                         addForeignKeys?, dropForeignKeys? }

/-- Whether the key stands for a map of items, which name themselves. -/
def Json.isItemMap (key : String) : Bool := ["tables", "columns", "relationships"].contains key

mutual

/-- The value with lists of items in the place of maps and with real numbers as texts. -/
def Json.listed : Json → Json
  | .null => .null
  | .bool b => .bool b
  | .number (.real x) => x.toExplicit
  | .number n => .number n
  | .string s => .string s
  | .array items => .array (Json.listedItems items)
  | .object members => .object (Json.listedMembers members)
termination_by structural j => j

/-- The items with lists in the place of maps. -/
def Json.listedItems : List Json → List Json
  | [] => []
  | item :: rest => item.listed :: Json.listedItems rest
termination_by structural items => items

/-- The members with lists in the place of maps. -/
def Json.listedMembers : List (String × Json) → List (String × Json)
  | [] => []
  | (key, .object entries) :: rest =>
    (key, if Json.isItemMap key then .array (Json.listedValues entries)
      else .object (Json.listedMembers entries)) :: Json.listedMembers rest
  | (key, value) :: rest => (key, value.listed) :: Json.listedMembers rest
termination_by structural members => members

/-- The items of a map. -/
def Json.listedValues : List (String × Json) → List Json
  | [] => []
  | (_, item) :: rest => item.listed :: Json.listedValues rest
termination_by structural members => members

end

/-- Writes what is known of a column type, in every dialect. -/
def ColumnType.toExplicit (t : ColumnType) : Json :=
  .object [("type", t.toJson), ("text", .string t.toText), ("numeric", .bool t.isNumeric),
    ("sql", Json.ofStrings (Dialect.all.map t.toSql)),
    ("stored", Json.ofList (fun d => (t.stored d).toJson) Dialect.all)]

/-- Writes the names of tables. -/
def Table.namesOf (tables : List Table) : Json := Json.ofStrings (tables.map (·.name))

/-- Writes differences in summary. -/
def SchemaDiff.summary (d : SchemaDiff) : List (String × Json) :=
  [("differs", .bool !d.isEmpty), ("breaking", .bool d.isBreaking),
    ("create", Table.namesOf d.tablesToCreate), ("drop", Table.namesOf d.tablesToDrop),
    ("columns", Json.ofList (fun (table, c) =>
      Json.ofStrings [table, c.name, c.change.kindWord "add", c.description]) d.columns),
    ("indexes", Json.ofList (fun (table, i) =>
      Json.ofStrings [table, i.name, i.change.kindWord "create", i.description]) d.indexes),
    ("relationships", Json.ofList (fun r =>
      Json.ofStrings [r.name, r.change.kindWord "create", r.description]) d.relationships)]

end EntitySql
