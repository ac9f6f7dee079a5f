import EntitySql.Schema.Diff.Basic
/-!
# Statements that change a schema

A `Ddl` says which change of a schema a statement makes; `Ddl.toSql` writes it for a dialect. Where the
dialect has no statement for a change, and where a change cannot be undone in full, an SQL comment stands in
its place.
-/

namespace EntitySql

/-- A change of a schema that one statement makes. -/
inductive Ddl
  /-- Creates a table without its indexes. A guarded statement does nothing about a table that
  exists. -/
  | createTable (definition : TableDefinition) (guarded : Bool)
  | dropTable (table : String) (ifExists cascade : Bool)
  | renameTable (old new : String)
  | addColumn (table : String) (column : Column)
  | dropColumn (table column : String)
  | renameColumn (table old new : String)
  | setType (table column : String) (type : ColumnType)
  | setNullable (table column : String) (nullable : Bool)
  /-- Gives a column a default or takes it away. -/
  | setDefault (table column : String) (default? : Option ColumnDefault)
  | addUnique (table column : String)
  | dropUnique (table column : String)
  /-- Replaces the whole definition of a column. -/
  | modifyColumn (table : String) (column : Column)
  /-- Creates an index. A guarded statement does nothing about an index that exists. -/
  | createIndex (index : Index) (guarded : Bool)
  | dropIndex (index : Index)
  | addForeignKey (key : Relationship)
  | dropForeignKey (key : Relationship)
  /-- Says that the data of a column that was dropped is gone. -/
  | lostDataRemark (table column : String)
  /-- Says that an index that was dropped may have been defined otherwise. -/
  | lostIndexRemark (index : String)
deriving DecidableEq

namespace Ddl

/-- A name, which may be empty. -/
def quoted (name : String) : Sql := [.name name]

/-- Names with commas between them. -/
def quotedList (names : List String) : Sql := Sql.commaList (names.map quoted)

/-- The words, if the condition holds. -/
def wordsIf (condition : Bool) (text : String) : Sql := if condition then [.word text] else []

/-- The spelling of a column type. That of an unknown type is the caller's. -/
def typeSql (t : ColumnType) (d : Dialect) : Sql :=
  if t.category = .unknown then [.raw (t.toSql d)] else [.word (t.toSql d)]

/-- The type of a column that counts up, where such columns have types of their own. -/
def serialWord : IntegerSize → String
  | .big => "BIGSERIAL"
  | .tiny | .small => "SMALLSERIAL"
  | .medium | .regular => "SERIAL"

/-- The comment of a column or a table behind the given words, where the dialect knows comments. -/
def commentSql (d : Dialect) (words : String) (comment? : Option String) : Sql :=
  match d.columnComments, comment? with
  | true, some comment => [.word words, .standardLiteral comment]
  | _, _ => []

/-- Whether the column has a type that counts up by itself. -/
def isSerial (d : Dialect) (c : Column) : Bool :=
  c.isAutoIncrement && d.serialStyle = .serialType

/-- What follows the type of a column. A primary key that is declared with its column is never null and
unique by itself. -/
def constraintsSql (d : Dialect) (inlineKey : Bool) (c : Column) : Sql :=
  wordsIf (!c.nullable && (!inlineKey || d.isMySqlLike)) " NOT NULL" ++
    wordsIf (c.isUnique && !inlineKey) " UNIQUE" ++
    (match c.default? with
      | some default => if isSerial d c then [] else .word " DEFAULT " :: default.toSql
      | none => []) ++
    wordsIf (c.isAutoIncrement && d.serialStyle = .autoIncrement) " AUTO_INCREMENT" ++
    wordsIf inlineKey " PRIMARY KEY" ++ commentSql d " COMMENT " c.comment?

/-- The definition of a column, with its primary key if the key is declared there. -/
def columnSql (d : Dialect) (inlineKey : Bool) (c : Column) : Sql :=
  let type : Sql := if isSerial d c then [.word (serialWord c.type.size)] else typeSql c.type d
  match c.isAutoIncrement && inlineKey, d.serialStyle with
  | true, .serialType => .name c.name :: .word " " :: type ++ [.word " PRIMARY KEY"]
  | true, .integerKey => [.name c.name, .word " INTEGER PRIMARY KEY AUTOINCREMENT"]
  | _, _ => .name c.name :: .word " " :: type ++ constraintsSql d inlineKey c

/-- The definition of a foreign key. -/
def foreignKeySql (r : Relationship) : Sql :=
  .word "CONSTRAINT " :: .name r.name :: .word " FOREIGN KEY (" :: quotedList r.referencing.columns ++
    .word ") REFERENCES " :: .name r.referenced.table :: .word " (" ::
      quotedList r.referenced.columns ++
    [.word (") ON DELETE " ++ r.deleteAction.keyword ++ " ON UPDATE " ++ r.updateAction.keyword)]

/-- The columns, the composite key and the foreign keys of a table. -/
def tableItems (d : Dialect) (definition : TableDefinition) : List Sql :=
  let t := definition.table
  t.columns.values.map (fun c => columnSql d (c.isPrimaryKey && !t.hasCompositeKey) c) ++
    (if t.hasCompositeKey then
      [.word "PRIMARY KEY (" :: quotedList t.primaryKey ++ [.word ")"]] else []) ++
    definition.foreignKeys.map foreignKeySql

/-- A guard, where the dialect has it. -/
def guardSql (guarded known : Bool) : Sql := wordsIf (guarded && known) "IF NOT EXISTS "

/-- The head of a statement that changes a column in place. -/
def alterColumnHead (table column : String) : Sql :=
  [.word "ALTER TABLE ", .name table, .word " ALTER COLUMN ", .name column]

/-- The name of the constraint that keeps a column unique. -/
def uniqueName (table column : String) : String := table ++ "_" ++ column ++ "_key"

/-- The statement that creates an index. Methods other than the usual one are named where the dialect has
them. -/
def createIndexSql (d : Dialect) (i : Index) (guarded : Bool) : Sql :=
  let kind :=
    if i.unique then "UNIQUE " else if d.isMySqlLike && i.method = .fulltext then "FULLTEXT " else ""
  let head := .word ("CREATE " ++ kind ++ "INDEX ") :: guardSql guarded d.indexIfNotExists ++
    [.name i.name, .word " ON ", .name i.table]
  let columns := .word "(" :: quotedList i.columns ++ [.word ")"]
  if d = .postgres && i.method != .btree && i.method != .fulltext then
    head ++ .word (" USING " ++ i.method.keyword ++ " ") :: columns
  else if d.isMySqlLike && i.method = .hash then head ++ .word " " :: columns ++ [.word " USING HASH"]
  else head ++ .word " " :: columns

/-- How every remark about lost information starts. -/
def reversalMarker : String := "-- TODO: Manual reversal needed"

/-- The remark of a dialect that cannot change a foreign key of an existing table. -/
def foreignKeyRemark (d : Dialect) (verb preposition : String) (r : Relationship) : Sql :=
  [.word ("-- " ++ d.name ++ " cannot " ++ verb ++ " foreign key "), .name r.name,
    .word (" " ++ preposition ++ " existing table "), .name r.referencing.table,
    .word "; recreate the table"]

/-- The statement for a change. -/
def toSql (statement : Ddl) (d : Dialect) : Sql :=
  match statement with
  | createTable definition guarded =>
    let t := definition.table
    .word "CREATE TABLE " :: guardSql guarded d.tableIfNotExists ++
      .name t.name :: .word " (" :: Sql.commaList (tableItems d definition) ++
      .word ")" :: (d.tableOptions?.map Sql.words).getD [] ++ commentSql d " COMMENT=" t.comment?
  | dropTable table ifExists cascade =>
    .word "DROP TABLE " :: wordsIf ifExists "IF EXISTS " ++
      .name table :: wordsIf (cascade && d.dropCascade) " CASCADE"
  | renameTable old new => [.word "ALTER TABLE ", .name old, .word " RENAME TO ", .name new]
  | addColumn table column =>
    .word "ALTER TABLE " :: .name table :: .word " ADD COLUMN " :: columnSql d false column
  | dropColumn table column =>
    [.word "ALTER TABLE ", .name table, .word " DROP COLUMN ", .name column]
  | renameColumn table old new =>
    [.word "ALTER TABLE ", .name table, .word " RENAME COLUMN ", .name old, .word " TO ", .name new]
  | setType table column type => alterColumnHead table column ++ .word " TYPE " :: typeSql type d
  | setNullable table column nullable =>
    alterColumnHead table column ++ [.word (if nullable then " DROP NOT NULL" else " SET NOT NULL")]
  | setDefault table column default? =>
    alterColumnHead table column ++
      match default? with
      | some default => .word " SET DEFAULT " :: default.toSql
      | none => [.word " DROP DEFAULT"]
  | addUnique table column =>
    [.word "ALTER TABLE ", .name table, .word " ADD CONSTRAINT ", .name (uniqueName table column),
      .word " UNIQUE (", .name column, .word ")"]
  | dropUnique table column =>
    if d.isMySqlLike then [.word "ALTER TABLE ", .name table, .word " DROP INDEX ", .name column]
    else
      [.word "ALTER TABLE ", .name table, .word " DROP CONSTRAINT ", .name (uniqueName table column)]
  | modifyColumn table column =>
    .word "ALTER TABLE " :: .name table :: .word " MODIFY COLUMN " :: columnSql d false column
  | createIndex index guarded => createIndexSql d index guarded
  | dropIndex index =>
    if d.isMySqlLike then [.word "DROP INDEX ", .name index.name, .word " ON ", .name index.table]
    else [.word "DROP INDEX IF EXISTS ", .name index.name]
  | addForeignKey key =>
    if d.alterForeignKeys then
      .word "ALTER TABLE " :: .name key.referencing.table :: .word " ADD " :: foreignKeySql key
    else foreignKeyRemark d "add" "to" key
  | dropForeignKey key =>
    if d.isMySqlLike then
      [.word "ALTER TABLE ", .name key.referencing.table, .word " DROP FOREIGN KEY ", .name key.name]
    else if d.alterForeignKeys then
      [.word "ALTER TABLE ", .name key.referencing.table, .word " DROP CONSTRAINT ", .name key.name]
    else foreignKeyRemark d "drop" "from" key
  | lostDataRemark table column =>
    [.word (reversalMarker ++ ": data of dropped column "), .name table, .word ".", .name column,
      .word " cannot be restored"]
  | lostIndexRemark index =>
    [.word (reversalMarker ++ ": dropped index "), .name index,
      .word " is recreated from its last known definition"]

/-- The text of the statement for a change. -/
def render (statement : Ddl) (d : Dialect) : String := d.render (statement.toSql d)

end Ddl

end EntitySql
