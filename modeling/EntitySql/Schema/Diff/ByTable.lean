import EntitySql.Schema.Diff.Basic
/-!
# Differences by table

`SchemaDiff.tableDiffs` sorts the differences of two schemas by table. Created tables come first, in
dependency order and each with all its foreign keys; then come the changed tables in the order in which
their first difference stands. What is altered in place of being edited (indexes and foreign keys) is
dropped and created again. Dropped tables are left out, and so are the foreign keys that go with them.
-/

namespace EntitySql.SchemaDiff

/-- The list, if it holds anything. -/
def nonEmpty? {α : Type} (list : List α) : Option (List α) := if list.isEmpty then none else some list

/-- The foreign key that a difference takes away from a table that stays. -/
def droppedKey? (d : SchemaDiff) (r : Difference Relationship) : Option Relationship :=
  r.change.old?.filter fun old => !d.tablesToDrop.any (·.name == old.referencing.table)

/-- The foreign key that a difference adds to a table that exists. -/
def addedKey? (d : SchemaDiff) (r : Difference Relationship) : Option Relationship :=
  r.change.new?.filter fun new => !d.tablesToCreate.any (·.name == new.referencing.table)

/-- The names of the changed tables in the order of their first differences. -/
def changedTables (d : SchemaDiff) : List String :=
  (d.columns.map Prod.fst ++ d.indexes.map Prod.fst ++
    d.relationships.flatMap fun r =>
      ((d.droppedKey? r).toList ++ (d.addedKey? r).toList).map (·.referencing.table)).eraseDups

/-- The differences of the items of one table. -/
def ofTable {α : Type} (table : String) (list : List (String × Difference α)) : List (Change α) :=
  (list.filter (·.1 == table)).map (·.2.change)

/-- The column that a change adds. -/
def addedColumn? : Change Column → Option Column
  | .create new => some new
  | _ => none

/-- The column that a change drops. -/
def droppedColumn? : Change Column → Option Column
  | .drop old => some old
  | _ => none

/-- The column change that a change makes. -/
def alteredColumn? : Change Column → Option ColumnChange
  | .alter old new => some { old, new }
  | _ => none

/-- The changes of one table. -/
def changesOf (d : SchemaDiff) (table : String) : TableChanges :=
  let columns := ofTable table d.columns
  let indexes := ofTable table d.indexes
  let ownKeys (key? : Difference Relationship → Option Relationship) : List Relationship :=
    (d.relationships.filterMap key?).filter (·.referencing.table == table)
  { addColumns? := nonEmpty? (columns.filterMap addedColumn?)
    alterColumns? := nonEmpty? (columns.filterMap alteredColumn?)
    dropColumns? := nonEmpty? (columns.filterMap droppedColumn?)
    addIndexes? := nonEmpty? (indexes.filterMap Change.new?)
    dropIndexes? := nonEmpty? (indexes.filterMap Change.old?)
    addForeignKeys? := nonEmpty? (ownKeys d.addedKey?)
    dropForeignKeys? := nonEmpty? (ownKeys d.droppedKey?) }

/-- The definition of a table to create. -/
def definitionOf (d : SchemaDiff) (t : Table) : TableDefinition :=
  { table := t
    foreignKeys :=
      ((d.relationships.filter (·.change.isCreate)).filterMap (·.change.new?)).filter
        (·.referencing.table == t.name) }

/-- The differences sorted by table. -/
def tableDiffs (d : SchemaDiff) : List TableDiff :=
  (d.tablesToCreate.map fun t => .create t.name (some (d.definitionOf t))) ++
    d.changedTables.map fun table => .alter table (d.changesOf table)

end EntitySql.SchemaDiff
