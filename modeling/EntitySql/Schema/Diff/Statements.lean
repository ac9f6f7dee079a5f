import EntitySql.Schema.Ddl
/-!
# From differences to statements

The statements that apply the differences of a table and those that undo them. Both keep to an order in
which nothing is used before it exists or dropped while it is used in the same table: foreign keys and
indexes go first, then columns change, and then indexes and foreign keys come.
-/

namespace EntitySql

/-- The statements that create a table with its indexes. -/
def TableDefinition.statements (definition : TableDefinition) (guarded : Bool) : List Ddl :=
  .createTable definition guarded :: definition.table.indexes.map (.createIndex · guarded)

/-- The statements that change a column. Each attribute has a statement of its own, or one statement
replaces the whole definition; not every dialect can do it. -/
def ColumnChange.statements (c : ColumnChange) (d : Dialect) (table : String) :
    Except SchemaError (List Ddl) :=
  let name := c.new.name
  match d with
  | .postgres =>
    let uniqueness : List Ddl :=
      if c.new.isUnique && !c.old.isUnique then [.addUnique table name]
      else if c.old.isUnique && !c.new.isUnique then [.dropUnique table name]
      else []
    .ok ([.setType table name c.new.type, .setNullable table name c.new.nullable,
      .setDefault table name c.new.default?] ++ uniqueness)
  | .mysql | .mariadb =>
    let uniqueness : List Ddl :=
      if c.old.isUnique && !c.new.isUnique then [.dropUnique table name] else []
    .ok (uniqueness ++
      [.modifyColumn table { c.new with isUnique := c.new.isUnique && !c.old.isUnique }])
  | .sqlite => .error (.cannotAlterColumn d table name)

/-- The statements that change columns one after the other. -/
def ColumnChange.allStatements (changes : List ColumnChange) (d : Dialect) (table : String) :
    Except SchemaError (List Ddl) := do
  return (← changes.mapM (·.statements d table)).flatten

namespace TableChanges

/-- The statements that apply the changes. -/
def statements (c : TableChanges) (d : Dialect) (table : String) (guarded : Bool) :
    Except SchemaError (List Ddl) := do
  let altered ← ColumnChange.allStatements c.alterColumns d table
  return c.dropForeignKeys.map .dropForeignKey ++ c.dropIndexes.map .dropIndex ++
    c.addColumns.map (.addColumn table) ++ altered ++
    c.dropColumns.map (fun column => .dropColumn table column.name) ++
    c.addIndexes.map (.createIndex · guarded) ++ c.addForeignKeys.map .addForeignKey

/-- The statements that undo the changes. What comes back may have lost something, which a remark in front
of it says. -/
def reversal (c : TableChanges) (d : Dialect) (table : String) (guarded : Bool) :
    Except SchemaError (List Ddl) := do
  let altered ← ColumnChange.allStatements (c.alterColumns.reverse.map (·.reverse)) d table
  return c.addForeignKeys.map .dropForeignKey ++ c.addIndexes.map .dropIndex ++
    c.dropColumns.flatMap (fun column =>
      [.lostDataRemark table column.name, .addColumn table column]) ++
    altered ++ c.addColumns.map (fun column => .dropColumn table column.name) ++
    c.dropIndexes.flatMap (fun index =>
      [.lostIndexRemark index.name, .createIndex index guarded]) ++
    c.dropForeignKeys.map .addForeignKey

end TableChanges

namespace TableDiff

/-- The statements that apply the differences. -/
def statements (t : TableDiff) (d : Dialect) (guarded : Bool := false) :
    Except SchemaError (List Ddl) :=
  match t with
  | create _ (some definition) => .ok (definition.statements guarded)
  | create table none => .error (.unknownTable table)
  | alter table changes => changes.statements d table guarded

/-- The statements that undo the differences. -/
def reversal (t : TableDiff) (d : Dialect) (guarded : Bool := false) :
    Except SchemaError (List Ddl) :=
  match t with
  | create table _ => .ok [.dropTable table true false]
  | alter table changes => changes.reversal d table guarded

end TableDiff

end EntitySql
