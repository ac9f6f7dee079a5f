import EntitySql.Proofs.Schema.DefinitionText
import EntitySql.Proofs.Schema.Editing
/-!
# Declaring the key of a table

A table keeps the names of its key columns beside the columns. A column that is added under a name that the table has
replaces the one before, but a name that was once part of the key stays there. The statement that creates the table
takes the columns from the one and the clause for a key of several columns from the other, so that it declares the key
if and only if at most one name was ever part of it, or all of them still are
(`Ddl.declaresKey_createTable_iff`).
-/

namespace EntitySql

/-- Distinct names are one at most exactly if all of them are equal. -/
theorem length_le_one_iff_of_nodup {names : List String} (h : names.Nodup) :
    names.length ≤ 1 ↔ ∀ a ∈ names, ∀ b ∈ names, a = b := by
  match names with
  | [] => exact iff_of_true (by decide) nofun
  | [_] =>
    exact iff_of_true (Nat.le_refl _) fun a ha b hb => (List.mem_singleton.1 ha).trans (List.mem_singleton.1 hb).symm
  | first :: second :: rest =>
    refine iff_of_false (by simp) fun hone => (List.nodup_cons.1 h).1 ?_
    rw [hone first (.head _) second (.tail _ (.head _))]
    exact .head _

/-! ## Columns that replace one another -/

namespace Column

/-- The column that has the name in the end. -/
def current? (columns : List Column) (name : String) : Option Column := columns.reverse.find? (·.name == name)

/-- Whether the column that has the name in the end is part of the key. -/
def IsKey (columns : List Column) (name : String) : Prop := (current? columns name).any (·.isPrimaryKey) = true

instance (columns : List Column) (name : String) : Decidable (IsKey columns name) :=
  inferInstanceAs (Decidable (_ = true))

variable {columns : List Column} {c : Column} {name : String}

theorem mem_of_current? (h : current? columns name = some c) : c ∈ columns ∧ c.name = name :=
  ⟨List.mem_reverse.1 (List.mem_of_find?_eq_some h), by simpa using List.find?_some h⟩

theorem exists_of_isKey (h : IsKey columns name) : ∃ c ∈ columns, c.isPrimaryKey = true ∧ c.name = name := by
  obtain ⟨c, hc, hkey⟩ := (Option.any_eq_true _ _).1 h
  exact ⟨c, (mem_of_current? hc).1, hkey, (mem_of_current? hc).2⟩

end Column

namespace Table

open Column (current? IsKey)

variable {columns : List Column} {t : Table} {name : String}

/-- A column that is part of the key adds its name to it, and no column takes a name away. -/
theorem mem_primaryKey_addColumn {c : Column} :
    name ∈ (t.addColumn c).primaryKey ↔ name ∈ t.primaryKey ∨ c.isPrimaryKey = true ∧ c.name = name := by
  rw [addColumn]
  dsimp only
  split
  · rename_i hnew
    rw [List.mem_append, List.mem_singleton, (Bool.and_eq_true_iff.1 hnew).1, eq_comm (a := name)]
    simp
  · rename_i hold
    refine (or_iff_left_of_imp ?_).symm
    rintro ⟨hkey, rfl⟩
    simpa [hkey] using hold

theorem nodup_primaryKey_addColumn (h : t.primaryKey.Nodup) (c : Column) : (t.addColumn c).primaryKey.Nodup := by
  rw [addColumn]
  dsimp only
  split
  · rename_i hnew
    have hnone : c.name ∉ t.primaryKey := by simpa using (Bool.and_eq_true_iff.1 hnew).2
    refine List.nodup_append.2 ⟨h, by simp, fun name hname other hother => ?_⟩
    rw [List.mem_singleton.1 hother]
    exact fun heq => hnone (heq ▸ hname)
  · exact h

/-- A name is in the key once a column with it has been. -/
theorem mem_primaryKey_foldl_addColumn : name ∈ (columns.foldl addColumn t).primaryKey ↔
    name ∈ t.primaryKey ∨ ∃ c ∈ columns, c.isPrimaryKey = true ∧ c.name = name := by
  induction columns generalizing t with
  | nil => simp
  | cons c rest ih =>
    rw [List.foldl_cons, ih, mem_primaryKey_addColumn, or_assoc]
    simp

theorem nodup_primaryKey_foldl_addColumn (h : t.primaryKey.Nodup) : (columns.foldl addColumn t).primaryKey.Nodup :=
  List.foldlRecOn (motive := fun t => t.primaryKey.Nodup) columns addColumn h fun _ h c _ =>
    nodup_primaryKey_addColumn h c

/-- The table with the columns, each in the place of the one before with its name. -/
def filled (table : String) (comment? : Option String) (columns : List Column) : Table :=
  columns.foldl addColumn { name := table, comment? }

variable {table : String} {comment? : Option String}

theorem columns_filled (table : String) (comment? : Option String) (columns : List Column) :
    (filled table comment? columns).columns = columns.foldl (fun a c => a.insert c.name { c with table }) {} := by
  obtain ⟨primaryKey, hfilled⟩ := foldl_addColumn columns { name := table, comment? }
  rw [filled, hfilled]

theorem isNamed_filled (table : String) (comment? : Option String) (columns : List Column) :
    (filled table comment? columns).columns.IsNamed Column.name := by
  rw [columns_filled]
  exact Assoc.IsNamed.empty.foldl_insert fun _ => rfl

theorem get?_filled (table : String) (comment? : Option String) (columns : List Column) (name : String) :
    (filled table comment? columns).columns.get? name =
      (current? columns name).map fun c => { c with table } := by
  rw [columns_filled, Assoc.get?_foldl_insert]
  exact Option.or_none

/-- The columns of the table are those that are left in the end. -/
theorem mem_values_filled {c : Column} : c ∈ (filled table comment? columns).columns.values ↔
    ∃ last, current? columns c.name = some last ∧ c = { last with table } := by
  constructor
  · intro hc
    have hget := (isNamed_filled table comment? columns).get?_of_mem hc
    rw [get?_filled] at hget
    obtain ⟨last, hlast, rfl⟩ := Option.map_eq_some_iff.1 hget
    exact ⟨last, hlast, rfl⟩
  · rintro ⟨last, hlast, hc⟩
    refine Assoc.mem_values_iff.2 ⟨c.name, ?_⟩
    rw [get?_filled, hlast, hc]
    rfl

theorem mem_names_filled : name ∈ (filled table comment? columns).columns.values.map Column.name ↔
    name ∈ columns.map Column.name := by
  rw [← (isNamed_filled table comment? columns).keys_eq, columns_filled, Assoc.mem_keys_foldl_insert]
  exact or_iff_right nofun

/-- The columns of the table that are part of the key. -/
theorem mem_keyNames_filled : name ∈ ((filled table comment? columns).columns.values.filter
    (·.isPrimaryKey)).map Column.name ↔ IsKey columns name := by
  rw [List.mem_map, IsKey, Option.any_eq_true]
  constructor
  · rintro ⟨c, hc, rfl⟩
    obtain ⟨hmem, hkey⟩ := List.mem_filter.1 hc
    obtain ⟨last, hlast, heq⟩ := mem_values_filled.1 hmem
    exact ⟨last, hlast, by rwa [heq] at hkey⟩
  · rintro ⟨last, hlast, hkey⟩
    obtain ⟨_, rfl⟩ := Column.mem_of_current? hlast
    exact ⟨{ last with table }, List.mem_filter.2 ⟨mem_values_filled.2 ⟨last, hlast, rfl⟩, hkey⟩, rfl⟩

theorem mem_primaryKey_filled : name ∈ (filled table comment? columns).primaryKey ↔
    ∃ c ∈ columns, c.isPrimaryKey = true ∧ c.name = name :=
  mem_primaryKey_foldl_addColumn.trans (or_iff_right nofun)

theorem nodup_primaryKey_filled : (filled table comment? columns).primaryKey.Nodup :=
  nodup_primaryKey_foldl_addColumn List.nodup_nil

/-- Whether all columns that are part of the key, when they are added, have one name. -/
def HasOneKeyName (columns : List Column) : Prop :=
  ∀ a ∈ columns, ∀ b ∈ columns, a.isPrimaryKey = true → b.isPrimaryKey = true → a.name = b.name

instance (columns : List Column) : Decidable (HasOneKeyName columns) :=
  inferInstanceAs (Decidable (∀ _ ∈ columns, ∀ _ ∈ columns, _))

theorem hasCompositeKey_filled : (filled table comment? columns).hasCompositeKey = false ↔ HasOneKeyName columns := by
  rw [hasCompositeKey, decide_eq_false_iff_not, Nat.not_lt, length_le_one_iff_of_nodup nodup_primaryKey_filled]
  constructor
  · intro hone a ha b hb hakey hbkey
    exact hone a.name (mem_primaryKey_filled.2 ⟨a, ha, hakey, rfl⟩) b.name
      (mem_primaryKey_filled.2 ⟨b, hb, hbkey, rfl⟩)
  · intro hone first hfirst second hsecond
    obtain ⟨a, ha, hakey, rfl⟩ := mem_primaryKey_filled.1 hfirst
    obtain ⟨b, hb, hbkey, rfl⟩ := mem_primaryKey_filled.1 hsecond
    exact hone a ha b hb hakey hbkey

end Table

theorem Column.IsReadable.of_current? {d : Dialect} {columns : List Column}
    (h : ∀ name, ∀ c ∈ current? columns name, c.IsReadable d) {table : String} {comment? : Option String} :
    ∀ c ∈ (Table.filled table comment? columns).columns.values, c.IsReadable d := by
  intro c hc
  obtain ⟨last, hlast, rfl⟩ := Table.mem_values_filled.1 hc
  have hreadable := h last.name last hlast
  exact ⟨hreadable.type, hreadable.expression, hreadable.literal⟩

/-! ## The key in the text -/

namespace TableReading

/-- The columns that a reader takes for the key. -/
def keys (r : TableReading) : List (List Char) := r.inlineKeys ++ r.keyClauses.flatten

/-- Whether the key is declared once, in one place: with its column, or in one clause if it has several. -/
structure DeclaresKey (r : TableReading) (isKey : String → Prop) : Prop where
  mem_iff : ∀ name : String, name.toList ∈ r.keys ↔ isKey name
  nodup : r.keys.Nodup
  place : (r.keyClauses = [] ∧ r.inlineKeys.length ≤ 1) ∨
    (r.inlineKeys = [] ∧ ∃ names, r.keyClauses = [names] ∧ 1 < names.length)

end TableReading

theorem toList_mem_map_iff {name : String} {names : List String} :
    name.toList ∈ names.map String.toList ↔ name ∈ names :=
  List.mem_map_of_injective fun _ _ => String.toList_injective

theorem nodup_map_toList {names : List String} (h : names.Nodup) : (names.map String.toList).Nodup :=
  List.Pairwise.map String.toList (fun _ _ hne heq => hne (String.toList_injective heq)) h

namespace Ddl

open Column (current? IsKey)
open Table (filled HasOneKeyName)

variable {columns : List Column} {d : Dialect} {table : String} {comment? : Option String}

/-- A key of one column is declared with the column that has its name in the end, if that is part of the key. -/
theorem declaresKey_of_hasOneKeyName (h : HasOneKeyName columns) :
    (filled table comment? columns).declarations.DeclaresKey (IsKey columns) := by
  let names := ((filled table comment? columns).columns.values.filter (·.isPrimaryKey)).map Column.name
  have hinline : (filled table comment? columns).declarations.inlineKeys = names.map String.toList := by
    simp [Table.declarations, Table.hasCompositeKey_filled.2 h, names]
  have hclauses : (filled table comment? columns).declarations.keyClauses = [] := by
    simp [Table.declarations, Table.hasCompositeKey_filled.2 h]
  have hnodup : names.Nodup :=
    (Table.isNamed_filled table comment? columns).nodup.sublist (List.filter_sublist.map _)
  have hkeys : (filled table comment? columns).declarations.keys = names.map String.toList := by
    rw [TableReading.keys, hinline, hclauses, List.flatten_nil, List.append_nil]
  refine ⟨fun name => ?_, ?_, .inl ⟨hclauses, ?_⟩⟩
  · rw [hkeys, toList_mem_map_iff, Table.mem_keyNames_filled]
  · rw [hkeys]
    exact nodup_map_toList hnodup
  · rw [hinline, List.length_map, length_le_one_iff_of_nodup hnodup]
    intro first hfirst second hsecond
    obtain ⟨a, ha, hakey, rfl⟩ := Column.exists_of_isKey (Table.mem_keyNames_filled.1 hfirst)
    obtain ⟨b, hb, hbkey, rfl⟩ := Column.exists_of_isKey (Table.mem_keyNames_filled.1 hsecond)
    exact h a ha b hb hakey hbkey

/-- A key of several columns is declared in a clause that lists all that have ever been part of it. -/
theorem declaresKey_iff_of_not_hasOneKeyName (h : ¬HasOneKeyName columns) :
    (filled table comment? columns).declarations.DeclaresKey (IsKey columns) ↔
      ∀ c ∈ columns, c.isPrimaryKey = true → IsKey columns c.name := by
  have hcomposite : (filled table comment? columns).hasCompositeKey = true :=
    eq_true_of_ne_false (mt Table.hasCompositeKey_filled.1 h)
  have hinline : (filled table comment? columns).declarations.inlineKeys = [] := by
    simp [Table.declarations, hcomposite]
  have hclauses : (filled table comment? columns).declarations.keyClauses =
      [(filled table comment? columns).primaryKey.map String.toList] := by
    simp [Table.declarations, hcomposite]
  have hkeys : (filled table comment? columns).declarations.keys =
      (filled table comment? columns).primaryKey.map String.toList := by
    rw [TableReading.keys, hinline, hclauses, List.flatten_singleton, List.nil_append]
  constructor
  · intro hdeclares c hc hkey
    have hmem : c.name ∈ (filled table comment? columns).primaryKey :=
      Table.mem_primaryKey_filled.2 ⟨c, hc, hkey, rfl⟩
    exact (hdeclares.mem_iff c.name).1 (by rwa [hkeys, toList_mem_map_iff])
  · intro hall
    refine ⟨fun name => ?_, ?_, .inr ⟨hinline, _, hclauses, ?_⟩⟩
    · rw [hkeys, toList_mem_map_iff, Table.mem_primaryKey_filled]
      refine ⟨?_, Column.exists_of_isKey⟩
      rintro ⟨c, hc, hkey, rfl⟩
      exact hall c hc hkey
    · rw [hkeys]
      exact nodup_map_toList Table.nodup_primaryKey_filled
    · rw [List.length_map]
      exact of_decide_eq_true hcomposite

/-- The statement that creates a table declares each of its columns once. It declares exactly those as key that are it
in the end, in one place, if and only if at most one name has ever been part of the key, or all that have been still
are. -/
theorem declaresKey_createTable_iff (h : ∀ name, ∀ c ∈ current? columns name, c.IsReadable d) (table : String)
    (comment? : Option String) (foreignKeys : List Relationship) (guarded : Bool) :
    let t := columns.foldl Table.addColumn { name := table, comment? }
    let reading := TableReading.ofTokens (d.lexemes ((createTable ⟨t, foreignKeys⟩ guarded).render d).toList)
    (∀ name : String, name.toList ∈ reading.columns ↔ name ∈ columns.map Column.name) ∧ reading.columns.Nodup ∧
      (reading.DeclaresKey (IsKey columns) ↔
        HasOneKeyName columns ∨ ∀ c ∈ columns, c.isPrimaryKey = true → IsKey columns c.name) := by
  intro t reading
  have hreading : reading = t.declarations :=
    reading_createTable (Column.IsReadable.of_current? h) guarded
  have hcolumns : t.declarations.columns = (t.columns.values.map Column.name).map String.toList := by
    rw [List.map_map]
    rfl
  rw [hreading, hcolumns]
  refine ⟨fun name => ?_, nodup_map_toList (Table.isNamed_filled table comment? columns).nodup, ?_⟩
  · rw [toList_mem_map_iff]
    exact Table.mem_names_filled
  · by_cases hone : HasOneKeyName columns
    · exact iff_of_true (declaresKey_of_hasOneKeyName hone) (.inl hone)
    · exact (declaresKey_iff_of_not_hasOneKeyName hone).trans (or_iff_right hone).symm

/-- A column that is part of the key again, and one with an expression for its default. -/
theorem declaresKey_createTable_session :
    let id : Column := { name := "id", type := .integer .big, nullable := false, isPrimaryKey := true }
    let opened : Column := { name := "opened", type := .of .timestamp, default? := some (.expression "now()") }
    let columns := [id, opened, { id with isAutoIncrement := true }]
    let statement := createTable ⟨columns.foldl Table.addColumn { name := "session" }, []⟩ true
    (∀ name, ∀ c ∈ current? columns name, c.IsReadable .postgres) ∧
      statement.render .postgres = "CREATE TABLE IF NOT EXISTS \"session\" (\"id\" BIGSERIAL PRIMARY KEY, " ++
        "\"opened\" TIMESTAMP DEFAULT now())" ∧
      (TableReading.ofTokens (Dialect.postgres.lexemes (statement.render .postgres).toList)).DeclaresKey
        (IsKey columns) := by
  intro id opened columns statement
  have htext : Dialect.postgres.characters [.raw "now()"] = Dialect.postgres.characters [.word "now()"] := rfl
  have hnow : Dialect.postgres.IsPart false [.raw "now()"] := .of_characters_eq htext (.of_reads (by decide))
  have hreadable : ∀ name, ∀ c ∈ current? columns name, c.IsReadable .postgres := by
    have hknown : ∀ c ∈ columns, c.type.category ≠ .unknown := by decide
    have hdefault : ∀ c ∈ columns, c.default? = none ∨ c.default? = some (.expression "now()") := by decide
    intro name c hcurrent
    have hc := (Column.mem_of_current? hcurrent).1
    refine ⟨fun h => absurd h (hknown c hc), fun sql hsql => ?_, nofun⟩
    rcases hdefault c hc with hnone | hsome
    · rw [hnone] at hsql
      cases hsql
    · rw [hsome] at hsql
      cases hsql
      exact hnow
  exact ⟨hreadable, by decide +kernel,
    (declaresKey_createTable_iff hreadable "session" none [] true).2.2.2 (.inl (by decide))⟩

/-- A column that is no longer part of the key is still declared as one. -/
theorem declares_former_key :
    let a : Column := { name := "a", type := .integer .regular, nullable := false, isPrimaryKey := true }
    let b : Column := { name := "b", type := .integer .regular, nullable := false, isPrimaryKey := true }
    let columns := [a, b, { name := "a", type := .integer .regular }]
    let statement := createTable ⟨columns.foldl Table.addColumn { name := "pair" }, []⟩ false
    let reading := TableReading.ofTokens (Dialect.postgres.lexemes (statement.render .postgres).toList)
    statement.render .postgres = "CREATE TABLE \"pair\" (\"a\" INTEGER, \"b\" INTEGER NOT NULL, " ++
        "PRIMARY KEY (\"a\", \"b\"))" ∧
      ¬IsKey columns "a" ∧ IsKey columns "b" ∧ reading.inlineKeys = [] ∧
      reading.keyClauses = [["a".toList, "b".toList]] ∧ ¬reading.DeclaresKey (IsKey columns) := by
  intro a b columns statement reading
  have htext : statement.render .postgres = "CREATE TABLE \"pair\" (\"a\" INTEGER, \"b\" INTEGER NOT NULL, " ++
      "PRIMARY KEY (\"a\", \"b\"))" := by decide +kernel
  have hformer : ¬IsKey columns "a" := by decide
  have hreading : reading.inlineKeys = [] ∧ reading.keyClauses = [["a".toList, "b".toList]] := by decide +kernel
  refine ⟨htext, hformer, by decide, hreading.1, hreading.2, fun hdeclares => ?_⟩
  refine hformer ((hdeclares.mem_iff "a").1 ?_)
  rw [TableReading.keys, hreading.1, hreading.2]
  exact .head _

end Ddl

end EntitySql
