import EntitySql.Migration.Querier
import EntitySql.Text.Substring
/-!
# The catalog of SQLite

Reads a schema back from the tables and pragmas in which SQLite describes it. An index that backs a `UNIQUE`
constraint on one column is a property of the column, and the index of the primary key is none of its own.
Foreign keys get the names that declared ones have.
-/

namespace EntitySql.Sqlite

/-- The word that makes a primary key count up. -/
def autoincrementWord : List Char := "AUTOINCREMENT".toList

/-- The upper-case form of a character as far as it can bring about a letter of `autoincrementWord`. Beyond
ASCII these are the dotless i and the t with diaeresis. -/
def raisedForm (c : Char) : List Char :=
  if c.toNat = 0x131 then ['I']
  else if c.toNat = 0x1E97 then ['T', Char.ofNat 0x308]
  else [c.toUpper]

/-- Whether the text of a table's definition makes its primary key count up. -/
def countsUp (definition : String) : Bool :=
  Text.occursIn autoincrementWord (definition.toList.flatMap raisedForm)

/-- The text in a column of a row. -/
def textOf? (row : Row) (column : String) : Option String := (row.get? column).bind Value.text?

/-- The text in a column of a row, or the empty text. -/
def textOf (row : Row) (column : String) : String := (textOf? row column).getD ""

/-- The number in a column of a row, or zero. -/
def numberOf (row : Row) (column : String) : Int := ((row.get? column).bind Value.int?).getD 0

/-- Rows in ascending order of the number in a column. Equal numbers keep their order. -/
def sortRows (column : String) (rows : List Row) : List Row :=
  rows.mergeSort fun a b => numberOf a column ≤ numberOf b column

/-- The query for the names of all tables. -/
def tableNamesQuery : Sql :=
  [.word "SELECT name FROM sqlite_master WHERE type = 'table' AND name NOT LIKE 'sqlite_%' ORDER BY name"]

/-- The query for what the catalog knows of a table. -/
def masterQuery (column table : String) : Sql :=
  [.word ("SELECT " ++ column ++ " FROM sqlite_master WHERE type = 'table' AND name = "), .literal table]

/-- The query for a description of a table or an index. -/
def pragmaQuery (pragma name : String) : Sql :=
  [.word ("PRAGMA " ++ pragma ++ "("), .name name, .word ")"]

variable {σ : Type}

/-- The rows of a query. -/
def rowsOf (q : Querier σ) (sql : Sql) : Action σ (List Row) := q.all (Dialect.sqlite.render sql)

/-- The names of the tables. -/
def tableNames (q : Querier σ) : Action σ (List String) := do
  return (← rowsOf q tableNamesQuery).filterMap (textOf? · "name")

/-- Whether a table exists. -/
def tableExists (q : Querier σ) (table : String) : Action σ Bool := do
  return !(← rowsOf q (masterQuery "name" table)).isEmpty

/-- The column that a row describes. -/
def columnOf (row : Row) : Column :=
  let isPrimaryKey := 0 < numberOf row "pk"
  { name := textOf row "name"
    type := ColumnType.ofSql (textOf row "type") .sqlite
    nullable := numberOf row "notnull" = 0 && !isPrimaryKey
    isPrimaryKey
    default? := (textOf? row "dflt_value").map .expression }

/-- The names of the primary key's columns in key order. Columns that share a place are in order of their
names. -/
def primaryKeyOf (rows : List Row) : List String :=
  let parts := (rows.filter fun row => 0 < numberOf row "pk").map fun row =>
    (numberOf row "pk", textOf row "name")
  (parts.mergeSort fun a b => a.1 < b.1 || (a.1 = b.1 && a.2 ≤ b.2)).map Prod.snd

/-- The table that the rows describe, still without indexes. -/
def tableOf (name : String) (definition : Row) (rows : List Row) : Table :=
  let filled := (rows.map columnOf).foldl Table.addColumn { name }
  let key := primaryKeyOf rows
  let counting := (textOf? definition "sql").any countsUp
  { filled with
    primaryKey := key
    columns :=
      match key with
      | [column] =>
        if counting then filled.columns.modify column fun c => { c with isAutoIncrement := true }
        else filled.columns
      | _ => filled.columns }

/-- The table with an index, or with what the index says of a column. -/
def withIndex (t : Table) (index : Row) (columns : List String) : Table :=
  let found : Index := ({ name := textOf index "name", columns } : Index).fromDatabase
  match textOf index "origin", columns with
  | "pk", _ => t
  | "u", [column] =>
    { t with columns := t.columns.modify column fun c => { c with isUnique := true } }
  | "u", _ => t.addIndex { found with unique := true }
  | _, _ => t.addIndex { found with unique := numberOf index "unique" ≠ 0 }

/-- Adds the indexes one by one. -/
def addIndexes (q : Querier σ) (t : Table) (indexes : List Row) : Action σ Table :=
  indexes.foldlM
    (fun t index => do
      let parts ← rowsOf q (pragmaQuery "index_info" (textOf index "name"))
      return withIndex t index ((sortRows "seqno" parts).filterMap (textOf? · "name")))
    t

/-- A table with its columns and indexes, if it exists. -/
def table? (q : Querier σ) (name : String) : Action σ (Option Table) := do
  match ← rowsOf q (masterQuery "sql" name) with
  | [] => return none
  | definition :: _ =>
    let t := tableOf name definition (← rowsOf q (pragmaQuery "table_info" name))
    return some (← addIndexes q t (← rowsOf q (pragmaQuery "index_list" name)))

/-- The rows in groups of equal numbers in a column, in ascending order of the number. -/
def groupRows (column : String) (rows : List Row) : List (List Row) :=
  let numbers := ((rows.map fun row => numberOf row column).mergeSort fun a b => a ≤ b).eraseDups
  numbers.map fun n => rows.filter fun row => numberOf row column = n

/-- The action that a row names, if it names one. -/
def actionOf? (row : Row) (column : String) : Option ReferentialAction :=
  (textOf? row column).bind ReferentialAction.ofText?

/-- The foreign key that rows in key order describe. Without a target column it refers to the primary key of
its target. -/
def foreignKey (q : Querier σ) (table : String) (first : Row) (parts : List Row) :
    Action σ Relationship := do
  let target := textOf first "table"
  let columns := parts.filterMap (textOf? · "from")
  let named := parts.filterMap (textOf? · "to")
  let referenced ←
    if named.isEmpty then do
      let found ← table? q target
      pure ((found.map (·.primaryKey)).getD [])
    else pure named
  return {
    name := Schema.foreignKeyName table columns
    referencing := { table, columns }
    referenced := { table := target, columns := referenced }
    onDelete? := actionOf? first "on_delete"
    onUpdate? := actionOf? first "on_update" }

/-- The foreign keys of a table. -/
def foreignKeys (q : Querier σ) (table : String) : Action σ (List Relationship) := do
  let rows ← rowsOf q (pragmaQuery "foreign_key_list" table)
  let keys ← (groupRows "id" rows).mapM fun group => do
    match sortRows "seq" group with
    | [] => return none
    | first :: rest => return some (← foreignKey q table first (first :: rest))
  return keys.filterMap id

/-- The whole schema. Foreign keys to tables that do not exist are left out. -/
def introspect (q : Querier σ) : Action σ Schema := do
  let names ← tableNames q
  let tables ← names.mapM (table? q)
  let filled := (tables.filterMap id).foldl Schema.addTable {}
  filled.tables.values.foldlM
    (fun schema t => do
      let keys ← foreignKeys q t.name
      return keys.foldl
        (fun schema key =>
          match schema.addRelationship key with
          | .ok linked => linked
          | .error _ => schema)
        schema)
    filled

end EntitySql.Sqlite
