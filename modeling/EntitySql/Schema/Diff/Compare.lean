import EntitySql.Schema.Diff.Basic
import EntitySql.Schema.Diff.DefaultKey
import EntitySql.Schema.Order
import EntitySql.Text.LetterCase
/-!
# Comparing schemas

`Schema.diff` compares a desired schema with the current one. Items are matched by name: what is desired
and has no match is created, what exists and has no match is dropped, and matched items are compared
attribute by attribute. Descriptions show the current value in front of the desired one.
-/

namespace EntitySql

/-- What a comparison takes into account. -/
structure DiffOptions where
  /-- Whether names are matched in any case of letters. -/
  ignoreCase : Bool := false
  /-- Tables that are left out. -/
  excludeTables : List String := []
  compareIndexes : Bool := true
  compareRelationships : Bool := true
deriving DecidableEq, Repr

namespace DiffOptions

/-- The form of a name that decides about a match. -/
def fold (o : DiffOptions) (name : String) : String :=
  if o.ignoreCase then Text.lowered name else name

/-- Whether the table is left out. -/
def excludes (o : DiffOptions) (table : String) : Bool :=
  o.excludeTables.any fun name => o.fold name == o.fold table

/-- The table with a matching name. -/
def findTable? (o : DiffOptions) (s : Schema) (name : String) : Option Table :=
  if o.ignoreCase then s.tables.values.find? fun t => o.fold t.name == o.fold name
  else s.table? name

end DiffOptions

/-- How items of one kind are named, compared and described. -/
structure ItemRules (α : Type) where
  name : α → String
  /-- The summary of an item to create. -/
  describeNew : α → String
  /-- The summary of an item to drop. -/
  describeOld : α → String
  /-- The attributes that differ between the current item and the desired one. -/
  changes : α → α → List String

namespace ItemRules

variable {α : Type}

/-- The first item with a matching name. -/
def find? (rules : ItemRules α) (fold : String → String) (items : List α) (name : String) : Option α :=
  items.find? fun item => fold (rules.name item) == fold name

/-- What has to happen for a desired item: it is created where there is no match and altered where the
match differs. -/
def difference? (rules : ItemRules α) (fold : String → String) (current : List α) (new : α) :
    Option (Difference α) :=
  match rules.find? fold current (rules.name new) with
  | none =>
    some { name := rules.name new, change := .create new, description := rules.describeNew new }
  | some old =>
    match rules.changes old new with
    | [] => none
    | changes =>
      some { name := rules.name new, change := .alter old new,
             description := ", ".intercalate changes }

/-- The drop of a current item, if no desired one matches it. -/
def drop? (rules : ItemRules α) (fold : String → String) (desired : List α) (old : α) :
    Option (Difference α) :=
  match rules.find? fold desired (rules.name old) with
  | none =>
    some { name := rules.name old, change := .drop old, description := rules.describeOld old }
  | some _ => none

/-- The differences of the items that count: what to create and alter, and then what to drop. Items that do
not count can still be matched. -/
def differences (rules : ItemRules α) (fold : String → String) (counts : α → Bool)
    (desired current : List α) : List (Difference α) :=
  (desired.filter counts).filterMap (rules.difference? fold current) ++
    (current.filter counts).filterMap (rules.drop? fold desired)

end ItemRules

/-- A list of names between parentheses. -/
def nameList (names : List String) : String := "(" ++ ", ".intercalate names ++ ")"

/-- The attribute with both values, if they differ. -/
def changedAttribute (label : String) (same : Bool) (old new : String) : List String :=
  if same then [] else [label ++ ": " ++ old ++ " → " ++ new]

/-- The attribute with both truth values, if they differ. -/
def changedFlag (label : String) (old new : Bool) : List String :=
  changedAttribute label (old == new) (if old then "true" else "false") (if new then "true" else "false")

namespace Column

/-- Whether two columns have the same type. Integers that the database counts up may differ in size. -/
def typesMatch (old new : Column) : Bool :=
  (new.isAutoIncrement && old.isAutoIncrement && new.type.category = .integer &&
    old.type.category = .integer) || new.type.isEquivalent old.type

/-- Whether two columns have the same default. It does not matter for columns that count up. -/
def defaultsMatch (old new : Column) : Bool :=
  let boolean := new.type.category = .boolean
  (new.isAutoIncrement && old.isAutoIncrement) ||
    new.default?.bind (·.key? boolean) == old.default?.bind (·.key? boolean)

/-- The default as it is shown to a reader. -/
def defaultText (c : Column) : String := (c.default?.map ColumnDefault.display).getD "NULL"

/-- The attributes of a column that differ. -/
def changes (old new : Column) : List String :=
  changedFlag "nullable" old.nullable new.nullable ++ changedFlag "unique" old.isUnique new.isUnique ++
    changedFlag "autoIncrement" old.isAutoIncrement new.isAutoIncrement ++
    changedAttribute "type" (typesMatch old new) old.type.toText new.type.toText ++
    changedAttribute "default" (defaultsMatch old new) old.defaultText new.defaultText

/-- How columns are compared. -/
def rules : ItemRules Column where
  name := (·.name)
  describeNew c := "add " ++ c.name ++ " " ++ c.type.toText
  describeOld c := "drop " ++ c.name
  changes := changes

end Column

namespace Index

/-- The attributes of an index that differ, with columns matched by folded name. -/
def changes (fold : String → String) (old new : Index) : List String :=
  changedFlag "unique" old.unique new.unique ++
    changedAttribute "columns" (new.columns.map fold == old.columns.map fold) (nameList old.columns)
      (nameList new.columns) ++
    changedAttribute "type" (new.method == old.method) old.method.name new.method.name

/-- How indexes are compared. -/
def rules (fold : String → String) : ItemRules Index where
  name := (·.name)
  describeNew i := "create index on " ++ nameList i.columns
  describeOld i := "drop index on " ++ nameList i.columns
  changes := changes fold

end Index

/-- The table of an endpoint with its columns. -/
def Endpoint.toText (e : Endpoint) : String := e.table ++ nameList e.columns

namespace Relationship

/-- Whether two foreign keys have the same columns and refer to the same table. -/
def endsMatch (fold : String → String) (old new : Relationship) : Bool :=
  fold new.referenced.table == fold old.referenced.table &&
    new.referenced.columns == old.referenced.columns &&
    new.referencing.columns == old.referencing.columns

/-- The attributes of a foreign key that differ. -/
def changes (fold : String → String) (old new : Relationship) : List String :=
  changedAttribute "onDelete" (new.deleteAction == old.deleteAction) old.deleteAction.keyword
      new.deleteAction.keyword ++
    changedAttribute "onUpdate" (new.updateAction == old.updateAction) old.updateAction.keyword
      new.updateAction.keyword ++
    changedAttribute "references" (endsMatch fold old new) old.referenced.toText new.referenced.toText

/-- How foreign keys are compared. -/
def rules (fold : String → String) : ItemRules Relationship where
  name := (·.name)
  describeNew r := "create " ++ r.referencing.toText ++ " → " ++ r.referenced.toText
  describeOld r := "drop " ++ r.referencing.toText
  changes := changes fold

end Relationship

namespace Schema

/-- The tables that count, in dependency order. -/
def comparedTables (s : Schema) (o : DiffOptions) : List Table :=
  s.sortedTables.filter fun t => !o.excludes t.name

/-- The desired tables that exist, each with its match. -/
def matchedTables (desired current : Schema) (o : DiffOptions) : List (Table × Table) :=
  (desired.comparedTables o).filterMap fun t => (o.findTable? current t.name).map fun old => (t, old)

/-- The differences between the desired schema and the current one. -/
def diff (desired current : Schema) (o : DiffOptions) : SchemaDiff :=
  let matched := matchedTables desired current o
  { tablesToCreate := (desired.comparedTables o).filter fun t => (o.findTable? current t.name).isNone
    tablesToDrop :=
      (current.comparedTables o).reverse.filter fun t => (o.findTable? desired t.name).isNone
    columns := matched.flatMap fun (new, old) =>
      (Column.rules.differences o.fold (fun _ => true) new.columns.values old.columns.values).map
        fun d => (new.name, d)
    indexes :=
      if o.compareIndexes then
        matched.flatMap fun (new, old) =>
          ((Index.rules o.fold).differences o.fold (fun _ => true) new.indexes old.indexes).map
            fun d => (new.name, d)
      else []
    relationships :=
      if o.compareRelationships then
        (Relationship.rules o.fold).differences o.fold
          (fun r => !o.excludes r.referencing.table)
          desired.relationships.values current.relationships.values
      else [] }

end Schema

end EntitySql
