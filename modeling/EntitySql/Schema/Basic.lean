import EntitySql.Entity.Basic
import EntitySql.Schema.ColumnType.Stored
import EntitySql.Schema.Error
/-!
# Schemas

A schema holds tables and the relationships between them. Everything is referred to by name: a
relationship names its tables, and each table lists the names of the relationships that leave it and
that arrive at it. Tables may therefore refer to themselves and to one another.
-/

namespace EntitySql

/-- A column of a table. -/
structure Column where
  name : String
  /-- The name of the table, empty as long as the column has none. -/
  table : String := ""
  type : ColumnType
  nullable : Bool := true
  /-- Whether the column is part of the primary key. -/
  isPrimaryKey : Bool := false
  /-- Whether the database counts up the values. -/
  isAutoIncrement : Bool := false
  /-- Whether no two rows share a value. -/
  isUnique : Bool := false
  default? : Option ColumnDefault := none
  comment? : Option String := none
deriving DecidableEq, Repr

/-- Where an index was found. -/
inductive IndexSource
  /-- It is declared by an entity. -/
  | entity
  /-- It exists in a database. -/
  | database
deriving DecidableEq, Repr

/-- Whether an index is known to exist in the database. -/
inductive SyncStatus
  | pending
  | synced
deriving DecidableEq, Repr

/-- An index of a table. -/
structure Index where
  name : String
  /-- The name of the table, empty as long as the index has none. -/
  table : String := ""
  /-- The indexed columns in order. -/
  columns : List String
  unique : Bool := false
  /-- The method, if it is not the usual one of the database. -/
  method? : Option IndexMethod := none
  source : IndexSource := .entity
  status : SyncStatus := .pending
deriving DecidableEq, Repr

namespace Index

/-- The method with the usual one filled in. -/
def method (i : Index) : IndexMethod := i.method?.getD .btree

/-- The index as it is found in a database. -/
def fromDatabase (i : Index) : Index := { i with source := .database, status := .synced }

end Index

/-- One side of a relationship. -/
structure Endpoint where
  table : String
  /-- The columns in key order. -/
  columns : List String
deriving DecidableEq, Repr

/-- A foreign key. -/
structure Relationship where
  /-- The name of the constraint. -/
  name : String
  /-- The cardinality seen from the referencing side. -/
  kind : Cardinality := .manyToOne
  /-- The side that holds the key. -/
  referencing : Endpoint
  /-- The side that the key refers to. -/
  referenced : Endpoint
  onDelete? : Option ReferentialAction := none
  onUpdate? : Option ReferentialAction := none
deriving DecidableEq, Repr

namespace Relationship

/-- What happens on a delete, which is nothing unless it is said. -/
def deleteAction (r : Relationship) : ReferentialAction := r.onDelete?.getD .noAction

/-- What happens on an update, which is nothing unless it is said. -/
def updateAction (r : Relationship) : ReferentialAction := r.onUpdate?.getD .noAction

end Relationship

/-- A table. -/
structure Table where
  name : String
  /-- The columns by name, in order of declaration. -/
  columns : Assoc Column := {}
  /-- The names of the columns of the primary key. -/
  primaryKey : List String := []
  indexes : List Index := []
  /-- The names of the relationships that refer to this table. -/
  incoming : List String := []
  /-- The names of the relationships that this table declares. -/
  outgoing : List String := []
  comment? : Option String := none
deriving DecidableEq

namespace Table

/-- Adds a column, in the place of the one with its name if there is one. Once part of the primary key, a
name stays there. -/
def addColumn (t : Table) (c : Column) : Table :=
  { t with
    primaryKey :=
      if c.isPrimaryKey && !t.primaryKey.contains c.name then t.primaryKey ++ [c.name]
      else t.primaryKey
    columns := t.columns.insert c.name { c with table := t.name } }

/-- Adds an index behind the others. -/
def addIndex (t : Table) (i : Index) : Table :=
  { t with indexes := t.indexes ++ [{ i with table := t.name }] }

/-- The first index with the name. -/
def index? (t : Table) (name : String) : Option Index := t.indexes.find? (·.name == name)

/-- Whether several columns make up the primary key. -/
def hasCompositeKey (t : Table) : Bool := 1 < t.primaryKey.length

/-- The table with every column type as the dialect stores it. -/
def normalizeTypes (t : Table) (d : Dialect) : Table :=
  { t with columns := t.columns.mapValues fun c => { c with type := c.type.stored d } }

end Table

/-- Tables and the relationships between them. -/
structure Schema where
  /-- The tables by name, in the order in which they were added. -/
  tables : Assoc Table := {}
  /-- The relationships by name. -/
  relationships : Assoc Relationship := {}
deriving DecidableEq

namespace Schema

instance : Inhabited Schema := ⟨{}⟩

/-- The name of an index that is not named otherwise. -/
def indexName (table : String) (columns : List String) : String :=
  "idx_" ++ table ++ "_" ++ "_".intercalate columns

/-- The name of a foreign key. -/
def foreignKeyName (table : String) (columns : List String) : String :=
  "fk_" ++ table ++ "_" ++ "_".intercalate columns

/-- The name at the end of the list, unless the list holds it already. -/
def link (name : String) (names : List String) : List String :=
  if names.contains name then names else names ++ [name]

/-- The table with the name. -/
def table? (s : Schema) (name : String) : Option Table := s.tables.get? name

/-- Adds a table, in the place of the one with its name if there is one. -/
def addTable (s : Schema) (t : Table) : Schema := { s with tables := s.tables.insert t.name t }

/-- Adds a relationship and links it from both of its tables, which have to exist. -/
def addRelationship (s : Schema) (r : Relationship) : Except SchemaError Schema :=
  if !s.tables.contains r.referencing.table then .error (.unknownTable r.referencing.table)
  else if !s.tables.contains r.referenced.table then .error (.unknownTable r.referenced.table)
  else
    let outward := s.tables.modify r.referencing.table fun t =>
      { t with outgoing := link r.name t.outgoing }
    .ok {
      tables := outward.modify r.referenced.table fun t =>
        { t with incoming := link r.name t.incoming }
      relationships := s.relationships.insert r.name r }

/-- The relationships that the table declares. -/
def outgoing (s : Schema) (t : Table) : List Relationship :=
  t.outgoing.filterMap s.relationships.get?

/-- The relationships that refer to the table. -/
def incoming (s : Schema) (t : Table) : List Relationship :=
  t.incoming.filterMap s.relationships.get?

/-- The schema with every column type as the dialect stores it, as a database of that dialect would
report it. -/
def normalizeTypes (s : Schema) (d : Dialect) : Schema :=
  { s with tables := s.tables.mapValues (·.normalizeTypes d) }

end Schema

end EntitySql
