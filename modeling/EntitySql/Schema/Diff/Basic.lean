import EntitySql.Schema.Basic
/-!
# Differences

What sets a desired schema apart from the current one, item by item (`SchemaDiff`), and the same
differences put together for each table (`TableDiff`), which is the form that statements are made from.
-/

namespace EntitySql

/-- What has to happen to an item of the current schema. -/
inductive Change (α : Type)
  /-- The item is desired and does not exist. -/
  | create (new : α)
  /-- The item exists and is not desired. -/
  | drop (old : α)
  /-- The item exists and differs from the desired one. -/
  | alter (old new : α)
deriving DecidableEq, Repr

namespace Change

variable {α : Type}

/-- The desired item. -/
def new? : Change α → Option α
  | create new | alter _ new => some new
  | drop _ => none

/-- The current item. -/
def old? : Change α → Option α
  | drop old | alter old _ => some old
  | create _ => none

/-- Whether the item is created. -/
def isCreate : Change α → Bool
  | create _ => true
  | _ => false

/-- Whether the item is dropped for good. -/
def isDrop : Change α → Bool
  | drop _ => true
  | _ => false

end Change

/-- The difference of one item. -/
structure Difference (α : Type) where
  /-- The name of the item. -/
  name : String
  change : Change α
  /-- A summary for the reader. -/
  description : String
deriving DecidableEq, Repr

/-- All differences of two schemas. Differences of columns and indexes go with the name of the desired
table. -/
structure SchemaDiff where
  /-- Tables to create, referenced ones first. -/
  tablesToCreate : List Table := []
  /-- Tables to drop, referencing ones first. -/
  tablesToDrop : List Table := []
  columns : List (String × Difference Column) := []
  indexes : List (String × Difference Index) := []
  relationships : List (Difference Relationship) := []
deriving DecidableEq

namespace SchemaDiff

/-- Whether nothing differs. -/
def isEmpty (d : SchemaDiff) : Bool :=
  d.tablesToCreate.isEmpty && d.tablesToDrop.isEmpty && d.columns.isEmpty && d.indexes.isEmpty &&
    d.relationships.isEmpty

/-- Whether a table, a column, an index or a foreign key is dropped for good. -/
def isBreaking (d : SchemaDiff) : Bool :=
  !d.tablesToDrop.isEmpty || d.columns.any (·.2.change.isDrop) || d.indexes.any (·.2.change.isDrop) ||
    d.relationships.any (·.change.isDrop)

end SchemaDiff

/-- A table together with the foreign keys that it declares. -/
structure TableDefinition where
  table : Table
  foreignKeys : List Relationship := []
deriving DecidableEq

/-- The current definition of a column and the desired one. -/
structure ColumnChange where
  old : Column
  new : Column
deriving DecidableEq, Repr

/-- The column change that undoes this one. -/
def ColumnChange.reverse (c : ColumnChange) : ColumnChange := { old := c.new, new := c.old }

/-- The changes of an existing table. A list that is absent holds nothing; one that is present counts as
a change even if it holds nothing. -/
structure TableChanges where
  addColumns? : Option (List Column) := none
  alterColumns? : Option (List ColumnChange) := none
  dropColumns? : Option (List Column) := none
  addIndexes? : Option (List Index) := none
  dropIndexes? : Option (List Index) := none
  addForeignKeys? : Option (List Relationship) := none
  dropForeignKeys? : Option (List Relationship) := none
deriving DecidableEq, Repr

namespace TableChanges

/-- Whether there is nothing to apply. -/
def isEmpty (c : TableChanges) : Bool :=
  c.addColumns?.isNone && c.alterColumns?.isNone && c.dropColumns?.isNone && c.addIndexes?.isNone &&
    c.dropIndexes?.isNone && c.addForeignKeys?.isNone && c.dropForeignKeys?.isNone

/-- The columns to add. -/
def addColumns (c : TableChanges) : List Column := c.addColumns?.getD []

/-- The columns to alter. -/
def alterColumns (c : TableChanges) : List ColumnChange := c.alterColumns?.getD []

/-- The columns to drop. -/
def dropColumns (c : TableChanges) : List Column := c.dropColumns?.getD []

/-- The indexes to create. -/
def addIndexes (c : TableChanges) : List Index := c.addIndexes?.getD []

/-- The indexes to drop. -/
def dropIndexes (c : TableChanges) : List Index := c.dropIndexes?.getD []

/-- The foreign keys to add. -/
def addForeignKeys (c : TableChanges) : List Relationship := c.addForeignKeys?.getD []

/-- The foreign keys to drop. -/
def dropForeignKeys (c : TableChanges) : List Relationship := c.dropForeignKeys?.getD []

/-- The changes without the drops of columns and indexes. -/
def withoutDrops (c : TableChanges) : TableChanges := { c with dropColumns? := none, dropIndexes? := none }

end TableChanges

/-- The differences of one table. -/
inductive TableDiff
  /-- The table is created. Without its definition that cannot be done in SQL. -/
  | create (table : String) (definition? : Option TableDefinition)
  /-- The table is changed. -/
  | alter (table : String) (changes : TableChanges)
deriving DecidableEq

namespace TableDiff

/-- The name of the table. -/
def table : TableDiff → String
  | create table _ | alter table _ => table

/-- Whether there is nothing to apply. -/
def isEmpty : TableDiff → Bool
  | create _ _ => false
  | alter _ changes => changes.isEmpty

/-- The differences without the drops of columns and indexes. -/
def withoutDrops : TableDiff → TableDiff
  | create table definition? => create table definition?
  | alter table changes => alter table changes.withoutDrops

end TableDiff

end EntitySql
