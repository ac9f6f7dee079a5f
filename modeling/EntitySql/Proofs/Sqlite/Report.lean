import Mathlib.Data.List.Forall2
import EntitySql.Proofs.Action
import EntitySql.Proofs.Assoc
import EntitySql.Schema.Ddl
import EntitySql.Sqlite.Catalog
/-!
# What SQLite reports

How SQLite answers the queries of the catalog once tables and indexes have been created
(`Sqlite.Reports`). It keeps the text of each table's definition, tells the columns with their types as
declared, the indexes (those that are created and those that it makes by itself for a `UNIQUE` column and for a
primary key that is not an integer) and the foreign keys. What it tells of a column is what the
definition of the column says (`Table.render_columnSql`). The columns of indexes and foreign keys are those of
their tables.
-/

namespace EntitySql

namespace Table

variable (t : Table) (c : Column)

/-- Whether the primary key is declared with the column. -/
def holdsKey : Bool := c.isPrimaryKey && !t.hasCompositeKey

/-- The type in the definition of the column. -/
def declaredType : String :=
  if c.isAutoIncrement && t.holdsKey c then "INTEGER" else c.type.toSql .sqlite

/-- Whether the definition of the column says `NOT NULL`. -/
def declaresNotNull : Bool := !c.nullable && !t.holdsKey c

/-- Whether the definition of the column says `UNIQUE`. -/
def declaresUnique : Bool := c.isUnique && !t.holdsKey c

/-- The place of the column in the primary key, counted from one, or zero. -/
def keyPosition : Nat :=
  if t.hasCompositeKey then ((t.primaryKey.idxOf? c.name).map (· + 1)).getD 0
  else if c.isPrimaryKey then 1 else 0

/-- The columns of the primary key. -/
def keyColumns : List String :=
  if t.hasCompositeKey then t.primaryKey
  else (t.columns.values.filter (·.isPrimaryKey)).map (·.name)

/-- Whether the primary key is the number of the row, which needs no index. -/
def hasRowKey : Bool :=
  t.columns.values.any fun c =>
    t.holdsKey c && (t.declaredType c).toList.map Char.toUpper == "INTEGER".toList

variable {c}

/-- The definition of a column without a default. -/
theorem render_columnSql (hdefault : c.default? = none) :
    (Ddl.columnSql .sqlite (t.holdsKey c) c).flatMap Dialect.sqlite.renderPiece =
      Dialect.sqlite.quoteName c.name ++ (" " ++ t.declaredType c ++
        (if t.declaresNotNull c then " NOT NULL" else "") ++
        (if t.declaresUnique c then " UNIQUE" else "") ++
        (if t.holdsKey c then " PRIMARY KEY" else "") ++
        (if c.isAutoIncrement && t.holdsKey c then " AUTOINCREMENT" else "")).toList := by
  have htype : (Ddl.typeSql c.type .sqlite).flatMap Dialect.sqlite.renderPiece =
      (c.type.toSql .sqlite).toList := by
    unfold Ddl.typeSql
    split <;> simp [Dialect.renderPiece]
  have hwords : ∀ (condition : Bool) (text : String),
      (Ddl.wordsIf condition text).flatMap Dialect.sqlite.renderPiece =
        (if condition then text else "").toList := by
    intro condition text
    cases condition <;> simp [Ddl.wordsIf, Dialect.renderPiece]
  have hserial : Ddl.isSerial .sqlite c = false := by simp [Ddl.isSerial, Dialect.serialStyle]
  have hcomment : ∀ words, Ddl.commentSql .sqlite words c.comment? = [] := fun _ => rfl
  unfold Ddl.columnSql
  by_cases hcounting : c.isAutoIncrement && t.holdsKey c
  · obtain ⟨hauto, hkey⟩ := Bool.and_eq_true_iff.1 hcounting
    simp [hauto, hkey, declaredType, declaresNotNull, declaresUnique, Dialect.serialStyle,
      Dialect.renderPiece]
  · have hsplit : (c.isAutoIncrement && t.holdsKey c) = false := by simpa using hcounting
    simp [hsplit, hserial, Dialect.serialStyle, Ddl.constraintsSql, hdefault, hcomment, htype, hwords,
      Dialect.renderPiece, declaredType, declaresNotNull, declaresUnique, Dialect.isMySqlLike]

end Table

namespace Sqlite

/-! ## The answers -/

/-- The cells of a row that are told: values by column. -/
abbrev Cells := List (String × Value)

/-- Whether the row holds the cells. It may hold others. -/
def Holds (row : Row) (cells : Cells) : Prop := ∀ cell ∈ cells, row.get? cell.1 = some cell.2

/-- Whether the query is answered by rows with these cells, which changes nothing. -/
def Answers {σ : Type} (q : Querier σ) (s : σ) (query : Sql) (answer : List Cells) : Prop :=
  ∃ rows, (rowsOf q query).Yields s rows ∧ List.Forall₂ Holds rows answer

/-- The value of a condition. -/
def flag (condition : Bool) : Value := .int (if condition then 1 else 0)

/-- Whether the name of a table counts as one of SQLite's own: one more character behind `sqlite`, in any case
of letters, is enough for the pattern `sqlite_%`. -/
def isHidden (name : String) : Bool :=
  "sqlite".toList.isPrefixOf (name.toList.map Char.toLower) && 6 < name.toList.length

/-- What is told of a column. -/
def columnCells (t : Table) (c : Column) : Cells :=
  [("name", .text c.name), ("type", .text (t.declaredType c)), ("notnull", flag (t.declaresNotNull c)),
    ("dflt_value", .null), ("pk", .int (t.keyPosition c))]

/-- Where an index comes from. -/
inductive IndexOrigin
  /-- A statement created it. -/
  | created
  /-- It keeps a column unique. -/
  | unique
  /-- It belongs to the primary key. -/
  | primaryKey
deriving DecidableEq

/-- The letters that stand for the origin. -/
def IndexOrigin.code : IndexOrigin → String
  | created => "c"
  | unique => "u"
  | primaryKey => "pk"

/-- An index as SQLite knows it. -/
structure IndexEntry where
  name : String
  unique : Bool
  origin : IndexOrigin
  columns : List String
deriving DecidableEq

namespace IndexEntry

variable (e : IndexEntry)

/-- What is told of an index. -/
def cells : Cells :=
  [("name", .text e.name), ("unique", flag e.unique), ("origin", .text e.origin.code)]

/-- What is told of the columns of an index. -/
def columnCells : List Cells :=
  e.columns.zipIdx.map fun (column, place) => [("seqno", .int place), ("name", .text column)]

/-- The entry without the name if that is one of SQLite's own choice. -/
def withoutOwnName : IndexEntry := if e.origin = .created then e else { e with name := "" }

end IndexEntry

/-- The indexes that keep columns unique. -/
def uniqueEntries (t : Table) : List IndexEntry :=
  (t.columns.values.filter t.declaresUnique).map fun c => ⟨"", true, .unique, [c.name]⟩

/-- The index of the primary key, if it has one. -/
def keyEntries (t : Table) : List IndexEntry :=
  if t.keyColumns.isEmpty || t.hasRowKey then [] else [⟨"", true, .primaryKey, t.keyColumns⟩]

/-- The indexes of a table for which the given ones were created. -/
def indexEntries (t : Table) (created : List Index) : List IndexEntry :=
  (created.map fun i => ⟨i.name, i.unique, .created, i.columns⟩) ++ uniqueEntries t ++ keyEntries t

/-- A pair of columns of a foreign key. -/
structure KeyPart where
  /-- The number of the key. -/
  id : Nat
  /-- The place of the pair in the key. -/
  place : Nat
  key : Relationship
  column : String
  target : String

/-- What is told of a pair of columns. -/
def KeyPart.cells (p : KeyPart) : Cells :=
  [("id", .int p.id), ("seq", .int p.place), ("table", .text p.key.referenced.table),
    ("from", .text p.column), ("to", .text p.target),
    ("on_update", .text p.key.updateAction.keyword), ("on_delete", .text p.key.deleteAction.keyword)]

/-- The pairs of columns of a foreign key with the given number. -/
def partsOf (key : Relationship) (id : Nat) : List KeyPart :=
  (key.referencing.columns.zip key.referenced.columns).zipIdx.map fun ((column, target), place) =>
    { id, place, key, column, target }

/-- The pairs of columns of numbered foreign keys. -/
def keyParts (keys : List Relationship) : List KeyPart := keys.zipIdx.flatMap fun (key, id) => partsOf key id

variable {σ : Type}

/-- What is reported of a table that was created together with indexes. -/
structure ReportsTable (q : Querier σ) (s : σ) (definition : TableDefinition) (created : List Index) :
    Prop where
  text : Answers q s (masterQuery "sql" definition.table.name)
    [[("sql", .text ((Ddl.createTable definition false).render .sqlite))]]
  columns : Answers q s (pragmaQuery "table_info" definition.table.name)
    (definition.table.columns.values.map (columnCells definition.table))
  /-- No two indexes have one name. -/
  indexes : ∃ entries : List IndexEntry, (entries.map (·.name)).Nodup ∧
    (entries.map (·.withoutOwnName)).Perm (indexEntries definition.table created) ∧
    Answers q s (pragmaQuery "index_list" definition.table.name) (entries.map (·.cells)) ∧
    ∀ e ∈ entries, Answers q s (pragmaQuery "index_info" e.name) e.columnCells
  keys : ∃ keys : List Relationship, keys.Perm definition.foreignKeys ∧
    Answers q s (pragmaQuery "foreign_key_list" definition.table.name)
      ((keyParts keys).map (·.cells))

/-- The definition of the table that a statement creates. -/
def definition? : Ddl → Option TableDefinition
  | .createTable definition _ => some definition
  | _ => none

/-- The index of the table that a statement creates. -/
def indexOf? (table : String) : Ddl → Option Index
  | .createIndex i _ => if i.table = table then some i else none
  | _ => none

/-- What is reported after the statements, which create tables and indexes, have been run in an empty
database. -/
structure Reports (q : Querier σ) (s : σ) (statements : List Ddl) : Prop where
  names : ∃ names : List String,
    names.Perm (((statements.filterMap definition?).map (·.table.name)).filter (!isHidden ·)) ∧
      Answers q s tableNamesQuery (names.map fun name => [("name", .text name)])
  tables : ∀ definition ∈ statements.filterMap definition?,
    ReportsTable q s definition (statements.filterMap (indexOf? definition.table.name))

end Sqlite

end EntitySql
