import EntitySql.Proofs.ReadBack
import EntitySql.Proofs.Sqlite.ReadSchema
/-!
# The schema that the answers of a catalog tell

A schema is read by queries for the names of the tables and for what the catalog knows of each table and of each
index. It follows from the answers alone (`Sqlite.Catalog.yields_schema`), whatever they are, and for any answers
there is a querier that gives them (`Sqlite.Catalog.isToldBy_querier`).
-/

namespace EntitySql.Sqlite

/-- The answers to the queries of the catalog. -/
structure Catalog where
  /-- The names of the tables. -/
  names : List Row
  /-- The text of a table's definition. -/
  definition : String → List Row
  /-- The columns of a table. -/
  columns : String → List Row
  /-- The indexes of a table. -/
  indexes : String → List Row
  /-- The columns of an index. -/
  indexColumns : String → List Row
  /-- The columns of a table's foreign keys. -/
  keyColumns : String → List Row

namespace Catalog

variable {σ : Type} {q : Querier σ} {s : σ} (c : Catalog)

/-- Whether these are the answers of the querier, which change nothing. -/
structure IsToldBy (c : Catalog) (q : Querier σ) (s : σ) : Prop where
  names : (rowsOf q tableNamesQuery).Yields s c.names
  definition : ∀ table, (rowsOf q (masterQuery "sql" table)).Yields s (c.definition table)
  columns : ∀ table, (rowsOf q (pragmaQuery "table_info" table)).Yields s (c.columns table)
  indexes : ∀ table, (rowsOf q (pragmaQuery "index_list" table)).Yields s (c.indexes table)
  indexColumns : ∀ index, (rowsOf q (pragmaQuery "index_info" index)).Yields s (c.indexColumns index)
  keyColumns : ∀ table, (rowsOf q (pragmaQuery "foreign_key_list" table)).Yields s (c.keyColumns table)

/-! ## What the answers tell -/

/-- The names of an index's columns in order. -/
def columnsOfIndex (index : String) : List String :=
  (sortRows "seqno" (c.indexColumns index)).filterMap (textOf? · "name")

/-- A table with its columns and indexes, if it exists. -/
def table? (name : String) : Option Table :=
  match c.definition name with
  | [] => none
  | definition :: _ =>
    some ((c.indexes name).foldl
      (fun t index => withIndex t index (c.columnsOfIndex (textOf index "name")))
      (tableOf name definition (c.columns name)))

/-- The columns of the primary key of a table, which may not exist. -/
def primaryKey (table : String) : List String := ((c.table? table).map (·.primaryKey)).getD []

/-- The foreign key that rows in key order describe. -/
def foreignKey (table : String) (first : Row) (parts : List Row) : Relationship :=
  let target := textOf first "table"
  let columns := parts.filterMap (textOf? · "from")
  let named := parts.filterMap (textOf? · "to")
  { name := Schema.foreignKeyName table columns
    referencing := { table, columns }
    referenced := { table := target, columns := if named.isEmpty then c.primaryKey target else named }
    onDelete? := actionOf? first "on_delete"
    onUpdate? := actionOf? first "on_update" }

/-- The foreign key that rows in any order describe, if there are any. -/
def foreignKey? (table : String) (group : List Row) : Option Relationship :=
  match sortRows "seq" group with
  | [] => none
  | first :: rest => some (c.foreignKey table first (first :: rest))

/-- The foreign keys of a table. -/
def foreignKeys (table : String) : List Relationship :=
  (groupRows "id" (c.keyColumns table)).filterMap (c.foreignKey? table)

/-- The names of the tables, also of those that turn out not to exist. -/
def listed : List String := c.names.filterMap (textOf? · "name")

/-- The names of the tables that exist. -/
def shown : List String := c.listed.filter fun name => (c.table? name).isSome

/-- The table with a name, or an empty one. -/
def read (name : String) : Table := (c.table? name).getD { name }

/-- The whole schema. -/
def schema : Schema := linkedSchema c.shown c.read c.foreignKeys

/-! ## Names and primary keys of the tables -/

@[simp]
theorem name_withIndex (t : Table) (index : Row) (columns : List String) :
    (withIndex t index columns).name = t.name := by
  unfold withIndex
  split <;> rfl

@[simp]
theorem primaryKey_withIndex (t : Table) (index : Row) (columns : List String) :
    (withIndex t index columns).primaryKey = t.primaryKey := by
  unfold withIndex
  split <;> rfl

theorem name_tableOf (name : String) (definition : Row) (rows : List Row) :
    (tableOf name definition rows).name = name :=
  List.foldlRecOn (motive := fun t : Table => t.name = name) _ Table.addColumn rfl fun _ h _ _ => h

variable {c}

theorem name_of_table? {name : String} {t : Table} (h : c.table? name = some t) : t.name = name := by
  rw [table?] at h
  split at h
  · cases h
  · rename_i definition _ _
    rw [← Option.some.inj h]
    exact List.foldlRecOn (motive := fun t : Table => t.name = name) _ _
      (name_tableOf name definition _) fun _ h _ _ => (name_withIndex _ _ _).trans h

/-- The primary key is what the rows of the table's columns say. -/
theorem primaryKey_of_table? {name : String} {t : Table} (h : c.table? name = some t) :
    t.primaryKey = primaryKeyOf (c.columns name) := by
  rw [table?] at h
  split at h
  · cases h
  · rw [← Option.some.inj h]
    exact List.foldlRecOn (motive := fun t : Table => t.primaryKey = primaryKeyOf (c.columns name)) _ _
      rfl fun _ h _ _ => (primaryKey_withIndex _ _ _).trans h

variable (c)

theorem name_read (name : String) : (c.read name).name = name := by
  rw [read]
  cases h : c.table? name with
  | none => rfl
  | some t => exact name_of_table? h

/-- What exists among the tables that are listed. -/
theorem filterMap_table?_listed : c.listed.filterMap c.table? = c.shown.map c.read := by
  rw [shown, ← List.filterMap_eq_map', List.filterMap_filter]
  refine List.filterMap_congr fun name _ => ?_
  rw [read]
  cases c.table? name <;> rfl

/-! ## Reading -/

section Reading

variable {c} (h : c.IsToldBy q s)
include h

theorem yields_tableNames : (Sqlite.tableNames q).Yields s c.listed := h.names.bind (.of_pure _)

theorem yields_table? (name : String) : (Sqlite.table? q name).Yields s (c.table? name) := by
  refine (h.definition name).bind ?_
  rw [table?]
  cases c.definition name with
  | nil => exact .of_pure _
  | cons definition rest =>
    refine (h.columns name).bind ((h.indexes name).bind (Action.Yields.bind ?_ (.of_pure _)))
    refine Action.Yields.foldlM (fun t index _ => (h.indexColumns (textOf index "name")).bind ?_) _
    exact .of_pure _

theorem yields_foreignKey (table : String) (first : Row) (parts : List Row) :
    (Sqlite.foreignKey q table first parts).Yields s (c.foreignKey table first parts) := by
  rw [Sqlite.foreignKey, foreignKey]
  split
  · exact (yields_table? h _).bind (.of_pure _)
  · exact .of_pure _

theorem yields_foreignKeys (table : String) :
    (Sqlite.foreignKeys q table).Yields s (c.foreignKeys table) := by
  refine (h.keyColumns table).bind ?_
  refine Action.Yields.bind
    (b := (groupRows "id" (c.keyColumns table)).map (c.foreignKey? table)) ?_ ?_
  · refine Action.Yields.mapM fun group _ => ?_
    rw [foreignKey?]
    cases sortRows "seq" group with
    | nil => exact .of_pure _
    | cons first rest => exact (yields_foreignKey h table first _).bind (.of_pure _)
  · rw [List.filterMap_map]
    exact .of_pure _

/-- The schema that is read is the one that the answers tell. -/
theorem yields_schema : (introspect q).Yields s c.schema :=
  yields_linkedSchema_of_filterMap (fun name _ => c.name_read name) (yields_tableNames h)
    (fun name _ => yields_table? h name) c.filterMap_table?_listed fun name _ => yields_foreignKeys h name

end Reading

/-! ## A querier that gives the answers -/

/-- The pragmas that describe tables and indexes. -/
def pragmas : List String := ["table_info", "index_list", "index_info", "foreign_key_list"]

/-- The answer to the query by a pragma. -/
def answerAbout (pragma name : String) : List Row :=
  match pragma with
  | "table_info" => c.columns name
  | "index_list" => c.indexes name
  | "index_info" => c.indexColumns name
  | _ => c.keyColumns name

/-- The answer to a query, which is known by its tokens. -/
def answer (query : String) : List Row :=
  let tokens := Dialect.sqlite.lexemes query.toList
  match tokens.getLast? with
  | some (.literal table) => c.definition (String.ofList table)
  | _ =>
    match tokens with
    | [_, .word pragma, _, .name name, _] => c.answerAbout (String.ofList pragma) (String.ofList name)
    | _ => c.names

/-- The querier that gives the answers. -/
def querier : Querier Unit where
  kind := .sql .sqlite
  isOpen := fun _ => false
  all := fun query => pure (c.answer query)
  run := fun _ => pure ()
  beginTransaction := pure ()
  commitTransaction := pure ()
  rollbackTransaction := pure ()
  release := pure ()

theorem answer_tableNamesQuery : c.answer (Dialect.sqlite.render tableNamesQuery) = c.names := by
  have hlast : (Dialect.sqlite.lexemes (Dialect.sqlite.characters tableNamesQuery)).getLast? =
      some (.word "name".toList) := by decide +kernel
  have hlength : (Dialect.sqlite.lexemes (Dialect.sqlite.characters tableNamesQuery)).length ≠ 5 := by
    decide +kernel
  simp only [answer, Dialect.toList_render, hlast]
  split
  · rename_i hfive
    exact absurd (congrArg List.length hfive) hlength
  · rfl

theorem answer_masterQuery (table : String) :
    c.answer (Dialect.sqlite.render (masterQuery "sql" table)) = c.definition table := by
  let front := "SELECT sql FROM sqlite_master WHERE type = 'table' AND name = ".toList
  have hcharacters : Dialect.sqlite.characters (masterQuery "sql" table) =
      front ++ Dialect.sqlite.quoteText table := by
    rw [masterQuery, Dialect.characters_cons, Dialect.characters_cons, Dialect.characters_nil, List.append_nil]
    rfl
  have hlast : (Dialect.sqlite.lexemes (Dialect.sqlite.render (masterQuery "sql" table)).toList).getLast? =
      some (.literal table.toList) := by
    rw [Dialect.toList_render, hcharacters, Dialect.lexemes_append_of_blank _ (by decide +kernel),
      Dialect.lexemes_quoteText, List.getLast?_concat]
  simp only [answer, hlast, String.ofList_toList]

theorem answer_pragmaQuery {pragma : String} (h : pragma ∈ pragmas) (name : String) :
    c.answer (Dialect.sqlite.render (pragmaQuery pragma name)) = c.answerAbout pragma name := by
  have hfront : ∀ pragma ∈ pragmas, Dialect.sqlite.scan .blank ("PRAGMA " ++ pragma ++ "(").toList =
      ([.word "PRAGMA".toList, .word pragma.toList, .symbol '('], .blank) := by decide +kernel
  have hblank := congrArg Prod.snd (hfront pragma h)
  have htokens : Dialect.sqlite.lexemes ("PRAGMA " ++ pragma ++ "(").toList =
      [.word "PRAGMA".toList, .word pragma.toList, .symbol '('] := by
    rw [Dialect.lexemes, hfront pragma h]
    rfl
  have hcharacters : Dialect.sqlite.characters (pragmaQuery pragma name) =
      ("PRAGMA " ++ pragma ++ "(").toList ++ (Dialect.sqlite.quoteName name ++ ")".toList) := rfl
  have hall : Dialect.sqlite.lexemes (Dialect.sqlite.render (pragmaQuery pragma name)).toList =
      [.word "PRAGMA".toList, .word pragma.toList, .symbol '(', .name name.toList, .symbol ')'] := by
    rw [Dialect.toList_render, hcharacters, Dialect.lexemes_append_of_blank _ hblank, htokens,
      (Dialect.readsToken_quoteName _ _).lexemes _ (by decide)]
    rfl
  rw [answer, hall]
  simp only [String.ofList_toList]
  rfl

variable {c} in
theorem yields_querier {query : Sql} {rows : List Row} (h : c.answer (Dialect.sqlite.render query) = rows) :
    (rowsOf c.querier query).Yields () rows := h ▸ .of_pure _

theorem isToldBy_querier : c.IsToldBy c.querier () where
  names := yields_querier c.answer_tableNamesQuery
  definition := fun table => yields_querier (c.answer_masterQuery table)
  columns := fun table => yields_querier (c.answer_pragmaQuery (by decide) table)
  indexes := fun table => yields_querier (c.answer_pragmaQuery (by decide) table)
  indexColumns := fun index => yields_querier (c.answer_pragmaQuery (by decide) index)
  keyColumns := fun table => yields_querier (c.answer_pragmaQuery (by decide) table)

end Catalog

end EntitySql.Sqlite
