import EntitySql.Proofs.Schema.Changes
import EntitySql.Proofs.Sqlite.ReadSchema
/-!
# Which schemas are read back without a difference

A schema of simple tables is created in an empty database and read back (`Sqlite.IsSchemaReadFrom`). It differs
from what was read in nothing that asks for a statement exactly if all that it has can be told
(`Sqlite.ReadsBack`): its tables may not be named like SQLite's own, indexes have to be of the usual method, keys
have to refer to tables that are created, and the text of a table's definition may say that the key counts up only
if it does.
-/

namespace EntitySql

/-! ## The text of a definition -/

namespace Text

theorem occursIn_iff {word cs : List Char} : occursIn word cs = true ↔ word <:+: cs := by
  induction cs with
  | nil => simp [occursIn]
  | cons c rest ih => rw [occursIn, Bool.or_eq_true, ih, List.isPrefixOf_iff_prefix, List.infix_cons_iff]

end Text

theorem Sql.mem_commaList {part : Sql} {piece : Sql.Piece} {parts : List Sql} (hpart : part ∈ parts)
    (hpiece : piece ∈ part) : piece ∈ Sql.commaList parts := by
  induction parts with
  | nil => cases hpart
  | cons first rest ih =>
    cases rest with
    | nil =>
      obtain rfl := List.mem_singleton.1 hpart
      simpa [commaList, join, List.intercalate] using hpiece
    | cons second rest =>
      have hsplit : commaList (first :: second :: rest) =
          first ++ .word ", " :: commaList (second :: rest) := by
        simp [commaList, join, List.intercalate]
      rw [hsplit, List.mem_append, List.mem_cons]
      rcases List.mem_cons.1 hpart with rfl | hrest
      · exact .inl hpiece
      · exact .inr (.inr (ih hrest))

/-- Words stand in the text of a statement as they are. -/
theorem Dialect.infix_render (d : Dialect) {text : String} {sql : Sql} (h : .word text ∈ sql) :
    text.toList <:+: (d.render sql).toList := by
  obtain ⟨before, after, rfl⟩ := List.append_of_mem h
  rw [render, String.toList_ofList, List.flatMap_append, List.flatMap_cons]
  exact ⟨_, _, List.append_assoc _ _ _⟩

namespace Sqlite

/-- The definition of a key that counts up says so. -/
theorem saysCounting_of_mem {definition : TableDefinition} (hsimple : definition.table.IsSimple)
    {c : Column} (hc : c ∈ definition.table.columns.values) (hauto : c.isAutoIncrement = true) :
    saysCounting definition = true := by
  have hcolumn : .word " INTEGER PRIMARY KEY AUTOINCREMENT" ∈
      Ddl.columnSql .sqlite (definition.table.holdsKey c) c := by
    rw [hsimple.holdsKey, (hsimple.counting c hc hauto).1]
    simp [Ddl.columnSql, hauto, Dialect.serialStyle]
  have hitem : Ddl.columnSql .sqlite (definition.table.holdsKey c) c ∈ Ddl.tableItems .sqlite definition := by
    simp only [Ddl.tableItems, List.mem_append, List.mem_map]
    exact .inl (.inl ⟨c, hc, rfl⟩)
  have hword : .word " INTEGER PRIMARY KEY AUTOINCREMENT" ∈ (Ddl.createTable definition false).toSql .sqlite := by
    simp only [Ddl.toSql, List.mem_append, List.mem_cons]
    exact .inl (.inl (.inr (.inr (.inr (Sql.mem_commaList hitem hcolumn)))))
  obtain ⟨before, after, hsplit⟩ := Dialect.sqlite.infix_render hword
  rw [saysCounting, countsUp, Text.occursIn_iff, Ddl.render, ← hsplit]
  -- Capital letters stay what they are.
  have hraised : " INTEGER PRIMARY KEY AUTOINCREMENT".toList.flatMap raisedForm =
      " INTEGER PRIMARY KEY ".toList ++ autoincrementWord := by decide +kernel
  refine ⟨before.flatMap raisedForm ++ " INTEGER PRIMARY KEY ".toList, after.flatMap raisedForm, ?_⟩
  rw [List.flatMap_append, List.flatMap_append, hraised, List.append_assoc (before.flatMap raisedForm)]

end Sqlite

/-! ## The statements that create a schema -/

namespace Schema

variable {s : Schema} {o : DiffOptions}

theorem definitions_creation :
    Sqlite.definitions (s.creation o) = (s.comparedTables o).map (s.definition o) := by
  have hindexes : ∀ indexes : List Index,
      (indexes.map (Ddl.createIndex · false)).filterMap Sqlite.definition? = [] := fun indexes => by
    simp [Sqlite.definition?]
  simp only [creation, Sqlite.definitions, List.filterMap_flatMap, TableDefinition.statements,
    List.filterMap_cons, hindexes, Sqlite.definition?]
  exact List.map_eq_flatMap.symm

/-- The indexes that are created are those of the tables. -/
theorem indexes_creation (hs : s.tables.IsNamed Table.name) (hattached : s.IsAttached) {t : Table}
    (ht : t ∈ s.comparedTables o) : (s.creation o).filterMap (Sqlite.indexOf? t.name) = t.indexes := by
  have hown : ∀ u ∈ s.comparedTables o, ∀ i ∈ u.indexes, i.table = u.name := fun u hu =>
    hattached u (Assoc.mem_values_of_get? ((mem_comparedTables hs).1 hu).1)
  have hone : ∀ u, ((s.definition o u).statements false).filterMap (Sqlite.indexOf? t.name) =
      u.indexes.filter (·.table = t.name) := by
    intro u
    rw [TableDefinition.statements, List.filterMap_cons]
    change (u.indexes.map _).filterMap _ = _
    rw [List.filterMap_map, ← List.filterMap_eq_filter]
    exact List.filterMap_congr fun i _ => by simp [Sqlite.indexOf?, Option.guard]
  have hnames := nodup_comparedTables (o := o) hs
  simp only [creation, List.filterMap_flatMap, hone]
  rw [Sqlite.flatMap_eq_of_mem (.of_map _ hnames) ht fun u hu hne => ?_]
  · exact List.filter_eq_self.2 fun i hi => decide_eq_true (hown t ht i hi)
  · refine List.filter_eq_nil_iff.2 fun i hi => ?_
    rw [decide_eq_true_iff, hown u hu i hi]
    exact fun hname => hne (List.inj_on_of_nodup_map hnames hu ht hname)

/-- The tables and foreign keys of a simple schema are created as such. -/
theorem createsSimple_creation (ho : o.ignoreCase = false) (hcompare : o.compareRelationships = true)
    (hnamed : s.IsNamed) (hsimple : s.IsSimple) : Sqlite.CreatesSimple (s.creation o) := by
  have hkey : ∀ t, ∀ key ∈ (s.definition o t).foreignKeys,
      key ∈ s.relationships.values ∧ key.referencing.table = t.name := fun t key hkey => by
    obtain ⟨hmem, _, howner⟩ := (mem_foreignKeys_definition_iff ho hcompare).1 hkey
    exact ⟨hmem, howner⟩
  constructor
  all_goals simp only [definitions_creation, List.forall_mem_map]
  · exact fun t ht => hsimple.tables t (Assoc.mem_values_of_get? ((mem_comparedTables hnamed.tables).1 ht).1)
  · exact fun t _ key hmem => ⟨hsimple.keys key (hkey t key hmem).1, (hkey t key hmem).2⟩
  · rw [List.map_map]
    exact nodup_comparedTables hnamed.tables
  · exact fun t _ key hmem u _ other hother hname => List.inj_on_of_nodup_map hnamed.relationships.nodup
      (hkey u other hother).1 (hkey t key hmem).1 hname

end Schema

/-! ## Comparing what was read -/

namespace Table.IsSimple

variable {t : Table} (h : t.IsSimple) {counts : Bool}

include h

/-- A column is read back without a difference if the text says of it what it does. -/
theorem changes_readColumn {c : Column} (hc : c ∈ t.columns.values) :
    Column.changes (t.readColumn counts c) c = [] ↔ (c.isPrimaryKey && counts) = c.isAutoIncrement := by
  constructor
  · intro hchanges
    simp only [Column.changes, List.append_eq_nil_iff, changedFlag_eq_nil_iff,
      Table.isAutoIncrement_readColumn] at hchanges
    exact hchanges.1.1.2
  · intro hcounts
    have htypes : (t.readColumn counts c).typesMatch c = true := by
      rw [Column.typesMatch, t.isAutoIncrement_readColumn, t.type_readColumn, h.ofSql_declaredType hc, hcounts]
      cases hflag : c.isAutoIncrement with
      | false => simp [ColumnType.isEquivalent_self]
      | true => simp [(h.counting c hc hflag).2, ColumnType.integer]
    have hdefaults : (t.readColumn counts c).defaultsMatch c = true := by
      simp [Column.defaultsMatch, h.defaults c hc]
    simp only [Column.changes, t.nullable_readColumn, t.isUnique_readColumn, t.isAutoIncrement_readColumn,
      hcounts, htypes, hdefaults, changedFlag_self, changedAttribute_true, List.append_nil]

end Table.IsSimple

namespace Sqlite.IsReadFrom

variable {old t : Table} {created : List Index} {counts : Bool} (h : IsReadFrom old t created counts)

include h

section Columns

variable (hnamed : t.columns.IsNamed Column.name)

include hnamed

theorem isNamed_columns : old.columns.IsNamed Column.name := by
  intro name c hc
  rw [h.columns] at hc
  obtain ⟨told, htold, rfl⟩ := Option.map_eq_some_iff.1 hc
  exact hnamed name told htold

theorem find?_column {c : Column} (hc : c ∈ t.columns.values) :
    Column.rules.find? id old.columns.values c.name = some (t.readColumn counts c) := by
  have hfind : Column.rules.find? id old.columns.values c.name = old.columns.get? c.name :=
    ItemRules.find?_values (h.isNamed_columns hnamed) c.name
  rw [hfind]
  rw [h.columns, hnamed.get?_of_mem hc]
  rfl

/-- Every column that was read is one of the table. -/
theorem exists_column {c : Column} (hc : c ∈ old.columns.values) :
    ∃ new, Column.rules.find? id t.columns.values c.name = some new := by
  obtain ⟨name, hget⟩ := Assoc.mem_values_iff.1 hc
  rw [h.columns] at hget
  obtain ⟨told, htold, rfl⟩ := Option.map_eq_some_iff.1 hget
  have hname : told.name = name := hnamed name told htold
  have hfind : Column.rules.find? id t.columns.values told.name = t.columns.get? told.name :=
    ItemRules.find?_values hnamed told.name
  exact ⟨told, hfind.trans (hname.symm ▸ htold)⟩

omit hnamed in
/-- The columns agree if the text of the definition says that the key counts up only if it does. -/
theorem agrees_columns_iff (hsimple : t.IsSimple)
    (hannounced : ∀ c ∈ t.columns.values, c.isAutoIncrement = true → counts = true) :
    Column.rules.Agrees id (fun _ => true) t.columns.values old.columns.values ↔
      (counts = true → ∀ c ∈ t.columns.values, c.isPrimaryKey = true → c.isAutoIncrement = true) := by
  have hsame : ∀ c ∈ t.columns.values, Column.changes (t.readColumn counts c) c = [] ↔
      (counts = true → c.isPrimaryKey = true → c.isAutoIncrement = true) := by
    intro c hc
    rw [hsimple.changes_readColumn hc]
    cases hauto : c.isAutoIncrement with
    | true => simp [(hsimple.counting c hc hauto).1, hannounced c hc hauto]
    | false => cases c.isPrimaryKey <;> cases counts <;> simp
  constructor
  · intro hagrees hcounts c hc hkey
    obtain ⟨found, hfound, hchanges⟩ := hagrees.unchanged c hc rfl
    obtain rfl := Option.some.inj ((h.find?_column hsimple.named hc).symm.trans hfound)
    exact (hsame c hc).1 hchanges hcounts hkey
  · exact fun hkeys =>
      { unchanged := fun c hc _ => ⟨_, h.find?_column hsimple.named hc,
          (hsame c hc).2 fun hcounts hkey => hkeys hcounts c hc hkey⟩
        wanted := fun c hc _ => h.exists_column hsimple.named hc }

end Columns

section Indexes

theorem find?_index {i : Index} (hi : i ∈ created) :
    (Index.rules id).find? id old.indexes i.name = some (readIndex t.name i) := by
  have hnodup : (old.indexes.map fun i => id ((Index.rules id).name i)).Nodup := by
    refine ((h.indexes.map _).nodup_iff).2 ?_
    rw [List.map_map]
    exact h.distinct
  exact ItemRules.find?_self hnodup (h.indexes.mem_iff.2 (List.mem_map.2 ⟨i, hi, rfl⟩))

/-- Every index that was read was created. -/
theorem exists_index {i : Index} (hi : i ∈ old.indexes) :
    ∃ new, (Index.rules id).find? id created i.name = some new := by
  obtain ⟨told, htold, rfl⟩ := List.mem_map.1 (h.indexes.mem_iff.1 hi)
  rw [← Option.isSome_iff_exists, ItemRules.find?, List.find?_isSome]
  exact ⟨told, htold, beq_self_eq_true _⟩

/-- The indexes agree if all are of the usual method. -/
theorem agrees_indexes_iff :
    (Index.rules id).Agrees id (fun _ => true) created old.indexes ↔ ∀ i ∈ created, i.method = .btree := by
  have hsame : ∀ i : Index, Index.changes id (readIndex t.name i) i = [] ↔ i.method = .btree := fun i => by
    rw [Index.changes_eq_nil_iff]
    exact ⟨fun halike => halike.method.symm, fun hmethod => ⟨rfl, rfl, hmethod.symm⟩⟩
  constructor
  · intro hagrees i hi
    obtain ⟨found, hfound, hchanges⟩ := hagrees.unchanged i hi rfl
    obtain rfl := Option.some.inj ((h.find?_index hi).symm.trans hfound)
    exact (hsame i).1 hchanges
  · exact fun hmethods =>
      { unchanged := fun i hi _ => ⟨_, h.find?_index hi, (hsame i).2 (hmethods i hi)⟩
        wanted := fun i hi _ => h.exists_index hi }

end Indexes

end Sqlite.IsReadFrom

/-- Whether all that the statements create is told when the schema is read back. -/
structure Sqlite.ReadsBack (statements : List Ddl) : Prop where
  /-- No table is named like one of SQLite's own. -/
  shown : ∀ definition ∈ definitions statements, isHidden definition.table.name = false
  /-- The text of a definition says that the key counts up only if it does. -/
  counting : ∀ definition ∈ definitions statements, saysCounting definition = true →
    ∀ c ∈ definition.table.columns.values, c.isPrimaryKey = true → c.isAutoIncrement = true
  /-- Indexes are of the usual method. -/
  methods : ∀ definition ∈ definitions statements, ∀ i ∈ definition.table.indexes, i.method = .btree
  /-- Foreign keys refer to tables that are created. -/
  targets : ∀ definition ∈ definitions statements, ∀ key ∈ definition.foreignKeys,
    ∃ other ∈ definitions statements, other.table.name = key.referenced.table

instance (statements : List Ddl) : Decidable (Sqlite.ReadsBack statements) :=
  decidable_of_iff
    ((∀ definition ∈ Sqlite.definitions statements, Sqlite.isHidden definition.table.name = false) ∧
      (∀ definition ∈ Sqlite.definitions statements, Sqlite.saysCounting definition = true →
        ∀ c ∈ definition.table.columns.values, c.isPrimaryKey = true → c.isAutoIncrement = true) ∧
      (∀ definition ∈ Sqlite.definitions statements, ∀ i ∈ definition.table.indexes, i.method = .btree) ∧
      ∀ definition ∈ Sqlite.definitions statements, ∀ key ∈ definition.foreignKeys,
        ∃ other ∈ Sqlite.definitions statements, other.table.name = key.referenced.table)
    ⟨fun ⟨shown, counting, methods, targets⟩ => { shown, counting, methods, targets },
      fun h => ⟨h.shown, h.counting, h.methods, h.targets⟩⟩

namespace Schema

section ReadBack

variable {s live : Schema} {o : DiffOptions} (ho : o.ignoreCase = false) (hnamed : s.IsNamed)
  (hattached : s.IsAttached) (hlive : Sqlite.IsSchemaReadFrom live (s.creation o))

include hlive

/-- The tables that were read are those that count and are shown. -/
theorem mem_keys_read_iff {name : String} :
    name ∈ live.tables.keys ↔ ∃ t ∈ s.comparedTables o, t.name = name ∧ Sqlite.isHidden name = false := by
  constructor
  · intro hname
    obtain ⟨old, hold⟩ := Assoc.mem_keys_iff.1 hname
    obtain ⟨_, hmem, rfl, hhidden, _⟩ := hlive.read name old hold
    rw [definitions_creation] at hmem
    obtain ⟨t, ht, rfl⟩ := List.mem_map.1 hmem
    exact ⟨t, ht, rfl, hhidden⟩
  · rintro ⟨t, ht, rfl, hhidden⟩
    exact hlive.shown (s.definition o t) (definitions_creation ▸ List.mem_map.2 ⟨t, ht, rfl⟩) hhidden

include ho in
theorem tablesToCreate_read_eq_nil_iff :
    (s.diff live o).tablesToCreate = [] ↔ ∀ t ∈ s.comparedTables o, Sqlite.isHidden t.name = false := by
  simp only [List.eq_nil_iff_forall_not_mem, mem_tablesToCreate, DiffOptions.findTable?_of_exact ho, table?,
    Assoc.get?_eq_none_iff, mem_keys_read_iff hlive, not_and, not_not]
  constructor
  · intro h t ht
    obtain ⟨_, _, _, hhidden⟩ := h t ht
    exact hhidden
  · exact fun h t ht => ⟨t, ht, rfl, h t ht⟩

include ho in
theorem tablesToDrop_read_eq_nil (hnamed : s.tables.IsNamed Table.name) :
    (s.diff live o).tablesToDrop = [] := by
  simp only [List.eq_nil_iff_forall_not_mem, mem_tablesToDrop, DiffOptions.findTable?_of_exact ho, table?,
    Assoc.get?_eq_none_iff, not_and, not_not, mem_comparedTables hlive.tables]
  rintro t ⟨hget, _⟩
  obtain ⟨u, hu, hname, _⟩ := (mem_keys_read_iff hlive).1 (Assoc.mem_keys_iff.2 ⟨t, hget⟩)
  exact hname ▸ Assoc.mem_keys_iff.2 ⟨u, ((mem_comparedTables hnamed).1 hu).1⟩

include ho hnamed hattached in
/-- A table is compared with what was read from it. -/
theorem isReadFrom_of_mem_matchedTables {new old : Table} (h : (new, old) ∈ matchedTables s live o) :
    Sqlite.IsReadFrom old new new.indexes (Sqlite.saysCounting (s.definition o new)) := by
  obtain ⟨hnew, hold⟩ := mem_matchedTables.1 h
  rw [DiffOptions.findTable?_of_exact ho] at hold
  obtain ⟨_, hmem, hname, _, hread⟩ := hlive.read new.name old hold
  rw [definitions_creation] at hmem
  obtain ⟨t, ht, rfl⟩ := List.mem_map.1 hmem
  obtain rfl := List.inj_on_of_nodup_map (nodup_comparedTables hnamed.tables) ht hnew hname
  rwa [indexes_creation hnamed.tables hattached ht] at hread

include ho in
/-- If all tables are shown each one that counts is compared. -/
theorem exists_mem_matchedTables (hshown : ∀ t ∈ s.comparedTables o, Sqlite.isHidden t.name = false)
    {t : Table} (ht : t ∈ s.comparedTables o) : ∃ old, (t, old) ∈ matchedTables s live o := by
  obtain ⟨old, hold⟩ := Assoc.mem_keys_iff.1 ((mem_keys_read_iff hlive).2 ⟨t, ht, rfl, hshown t ht⟩)
  exact ⟨old, mem_matchedTables.2 ⟨ht, (DiffOptions.findTable?_of_exact ho live t.name).trans hold⟩⟩

section Drops

include ho hnamed hattached

/-- No column that was read has to be dropped. -/
theorem isDrop_columns_read (hsimple : s.IsSimple) :
    ∀ entry ∈ (s.diff live o).columns, entry.2.change.isDrop = false := by
  rintro ⟨name, difference⟩ hentry
  have hchange : difference.change ∈ SchemaDiff.ofTable name (s.diff live o).columns :=
    SchemaDiff.mem_ofTable_of_mem hentry
  obtain ⟨new, old, hmatch, _, hrequires⟩ := (exists_matched_iff_mem_columns ho).1 hchange
  have hmem := Assoc.mem_values_of_get? ((mem_comparedTables hnamed.tables).1 (mem_matchedTables.1 hmatch).1).1
  cases hcase : difference.change with
  | create _ | alter _ _ => rfl
  | drop c =>
    rw [hcase] at hrequires
    obtain ⟨found, hfound⟩ := (isReadFrom_of_mem_matchedTables ho hnamed hattached hlive hmatch).exists_column
      (hsimple.tables new hmem).named hrequires.1
    exact nomatch hfound.symm.trans hrequires.2.2

/-- No index that was read has to be dropped. -/
theorem isDrop_indexes_read (hcompare : o.compareIndexes = true) :
    ∀ entry ∈ (s.diff live o).indexes, entry.2.change.isDrop = false := by
  rintro ⟨name, difference⟩ hentry
  have hchange : difference.change ∈ SchemaDiff.ofTable name (s.diff live o).indexes :=
    SchemaDiff.mem_ofTable_of_mem hentry
  obtain ⟨new, old, hmatch, _, hrequires⟩ := (exists_matched_iff_mem_indexes ho hcompare).1 hchange
  cases hcase : difference.change with
  | create _ | alter _ _ => rfl
  | drop i =>
    rw [hcase] at hrequires
    obtain ⟨found, hfound⟩ :=
      (isReadFrom_of_mem_matchedTables ho hnamed hattached hlive hmatch).exists_index hrequires.1
    exact nomatch hfound.symm.trans hrequires.2.2

end Drops

section Matched

variable (hsimple : s.IsSimple) (hshown : ∀ t ∈ s.comparedTables o, Sqlite.isHidden t.name = false)

include ho hnamed hattached hsimple

theorem agrees_columns_read_iff {new old : Table} (h : (new, old) ∈ matchedTables s live o) :
    Column.rules.Agrees id (fun _ => true) new.columns.values old.columns.values ↔
      (Sqlite.saysCounting (s.definition o new) = true →
        ∀ c ∈ new.columns.values, c.isPrimaryKey = true → c.isAutoIncrement = true) := by
  have hmem := Assoc.mem_values_of_get? ((mem_comparedTables hnamed.tables).1 (mem_matchedTables.1 h).1).1
  refine (isReadFrom_of_mem_matchedTables ho hnamed hattached hlive h).agrees_columns_iff
    (hsimple.tables new hmem) fun c hc hauto => ?_
  have hdefinition : (s.definition o new).table.IsSimple := hsimple.tables new hmem
  exact Sqlite.saysCounting_of_mem hdefinition hc hauto

include hshown in
theorem columns_read_eq_nil_iff :
    (s.diff live o).columns = [] ↔ ∀ t ∈ s.comparedTables o,
      Sqlite.saysCounting (s.definition o t) = true →
        ∀ c ∈ t.columns.values, c.isPrimaryKey = true → c.isAutoIncrement = true := by
  rw [columns_diff_eq_nil_iff, DiffOptions.fold_of_exact ho]
  constructor
  · intro h t ht
    obtain ⟨old, hmatch⟩ := exists_mem_matchedTables ho hlive hshown ht
    exact (agrees_columns_read_iff ho hnamed hattached hlive hsimple hmatch).1 (h _ hmatch)
  · rintro h ⟨new, old⟩ hmatch
    exact (agrees_columns_read_iff ho hnamed hattached hlive hsimple hmatch).2
      (h new (mem_matchedTables.1 hmatch).1)

omit hsimple

include hshown in
theorem indexes_read_eq_nil_iff (hcompare : o.compareIndexes = true) :
    (s.diff live o).indexes = [] ↔ ∀ t ∈ s.comparedTables o, ∀ i ∈ t.indexes, i.method = .btree := by
  rw [indexes_diff_eq_nil_iff, DiffOptions.fold_of_exact ho, forall_prop_of_true hcompare]
  constructor
  · intro h t ht
    obtain ⟨old, hmatch⟩ := exists_mem_matchedTables ho hlive hshown ht
    exact (isReadFrom_of_mem_matchedTables ho hnamed hattached hlive hmatch).agrees_indexes_iff.1 (h _ hmatch)
  · rintro h ⟨new, old⟩ hmatch
    exact (isReadFrom_of_mem_matchedTables ho hnamed hattached hlive hmatch).agrees_indexes_iff.2
      (h new (mem_matchedTables.1 hmatch).1)

end Matched

section Keys

variable (hlinked : s.IsLinked) (hcompare : o.compareRelationships = true)
  (hshown : ∀ t ∈ s.comparedTables o, Sqlite.isHidden t.name = false)

include ho hnamed hlinked hcompare hshown

/-- The foreign keys that were read are those that count and refer to a table that counts. -/
theorem mem_relationships_read_iff {r : Relationship} :
    r ∈ live.relationships.values ↔ ∃ key ∈ s.relationships.values,
      o.excludes key.referencing.table = false ∧ o.excludes key.referenced.table = false ∧
        r = key.read := by
  have hkeys : ∀ {name}, name ∈ s.tables.keys →
      (name ∈ live.tables.keys ↔ o.excludes name = false) := by
    intro name hname
    obtain ⟨t, hget⟩ := Assoc.mem_keys_iff.1 hname
    obtain rfl := hnamed.tables name t hget
    rw [mem_keys_read_iff hlive]
    constructor
    · rintro ⟨u, hu, hsame, _⟩
      exact hsame ▸ ((mem_comparedTables hnamed.tables).1 hu).2
    · intro hcounts
      have ht := (mem_comparedTables hnamed.tables).2 ⟨hget, hcounts⟩
      exact ⟨t, ht, rfl, hshown t ht⟩
  rw [hlive.keys]
  simp only [definitions_creation, List.mem_map, exists_exists_and_eq_and]
  constructor
  · rintro ⟨t, ht, key, hkey, _, hreferenced, rfl⟩
    obtain ⟨hmem, hcounts, _⟩ := (mem_foreignKeys_definition_iff ho hcompare).1 hkey
    exact ⟨key, hmem, hcounts, (hkeys (hlinked.joined key hmem).2).1 hreferenced, rfl⟩
  · rintro ⟨key, hmem, hcounts, hreferenced, rfl⟩
    obtain ⟨howner, htarget⟩ := hlinked.joined key hmem
    obtain ⟨t, ht, hname, _⟩ := (mem_keys_read_iff hlive).1 ((hkeys howner).2 hcounts)
    refine ⟨t, ht, key, ?_, ?_, (hkeys htarget).2 hreferenced, rfl⟩
    · exact (mem_foreignKeys_definition_iff ho hcompare).2 ⟨hmem, hcounts, hname.symm⟩
    · exact (mem_keys_read_iff hlive).2 ⟨t, ht, rfl, hshown t ht⟩

/-- The foreign keys agree if each of them that counts refers to a table that counts. -/
theorem agrees_relationships_read_iff :
    (Relationship.rules id).Agrees id (fun r => !o.excludes r.referencing.table) s.relationships.values
        live.relationships.values ↔
      ∀ key ∈ s.relationships.values, o.excludes key.referencing.table = false →
        o.excludes key.referenced.table = false := by
  have hread := fun r => mem_relationships_read_iff (r := r) ho hnamed hlive hlinked hcompare hshown
  constructor
  · intro hagrees key hkey hcounts
    obtain ⟨old, hfind, _⟩ := hagrees.unchanged key hkey (by simpa using hcounts)
    obtain ⟨hold, hname⟩ := ItemRules.mem_of_find? hfind
    obtain ⟨other, hother, _, hreferenced, rfl⟩ := (hread old).1 hold
    rwa [List.inj_on_of_nodup_map hnamed.relationships.nodup hother hkey hname] at hreferenced
  · refine fun htargets => { unchanged := fun key hkey hcounts => ?_, wanted := fun old hold _ => ?_ }
    · rw [Bool.not_eq_true'] at hcounts
      have hmem := (hread key.read).2 ⟨key, hkey, hcounts, htargets key hkey hcounts, rfl⟩
      refine ⟨key.read, ItemRules.find?_self ?_ hmem, ?_⟩
      · exact hlive.relationships.nodup
      · simp [Relationship.rules, Relationship.changes, Relationship.read, Relationship.endsMatch,
          Relationship.deleteAction, Relationship.updateAction]
    · obtain ⟨key, hkey, _, _, rfl⟩ := (hread old).1 hold
      exact ⟨key, ItemRules.find?_self hnamed.relationships.nodup hkey⟩

end Keys

end ReadBack

section Result

variable {s live : Schema} {o : DiffOptions} (ho : o.ignoreCase = false) (hnamed : s.IsNamed)
  (hlinked : s.IsLinked) (hcompare : o.compareRelationships = true)

include ho hnamed hlinked hcompare in
/-- All that a created schema tells, told by its tables and relationships. -/
theorem readsBack_creation_iff :
    Sqlite.ReadsBack (s.creation o) ↔
      (∀ t ∈ s.comparedTables o, Sqlite.isHidden t.name = false) ∧
        (∀ t ∈ s.comparedTables o, Sqlite.saysCounting (s.definition o t) = true →
          ∀ c ∈ t.columns.values, c.isPrimaryKey = true → c.isAutoIncrement = true) ∧
        (∀ t ∈ s.comparedTables o, ∀ i ∈ t.indexes, i.method = .btree) ∧
        ∀ key ∈ s.relationships.values, o.excludes key.referencing.table = false →
          o.excludes key.referenced.table = false := by
  have htable : ∀ {name}, name ∈ s.tables.keys →
      ((∃ t ∈ s.comparedTables o, t.name = name) ↔ o.excludes name = false) := by
    intro name hname
    obtain ⟨t, hget⟩ := Assoc.mem_keys_iff.1 hname
    obtain rfl := hnamed.tables name t hget
    constructor
    · rintro ⟨u, hu, hsame⟩
      exact hsame ▸ ((mem_comparedTables hnamed.tables).1 hu).2
    · exact fun hcounts => ⟨t, (mem_comparedTables hnamed.tables).2 ⟨hget, hcounts⟩, rfl⟩
  have hmem := @definitions_creation s o
  constructor
  · intro h
    have hall : ∀ t ∈ s.comparedTables o, s.definition o t ∈ Sqlite.definitions (s.creation o) :=
      fun t ht => hmem ▸ List.mem_map.2 ⟨t, ht, rfl⟩
    refine ⟨fun t ht => h.shown _ (hall t ht), fun t ht => h.counting _ (hall t ht),
      fun t ht => h.methods _ (hall t ht), fun key hkey hcounts => ?_⟩
    obtain ⟨howner, htarget⟩ := hlinked.joined key hkey
    obtain ⟨t, ht, hname⟩ := (htable howner).2 hcounts
    obtain ⟨other, hother, hsame⟩ := h.targets _ (hall t ht) key
      ((mem_foreignKeys_definition_iff ho hcompare).2 ⟨hkey, hcounts, hname.symm⟩)
    rw [hmem] at hother
    obtain ⟨u, hu, rfl⟩ := List.mem_map.1 hother
    exact (htable htarget).1 ⟨u, hu, hsame⟩
  · rintro ⟨hshown, hcounting, hmethods, htargets⟩
    constructor
    all_goals simp only [hmem, List.mem_map, exists_exists_and_eq_and, forall_exists_index, and_imp,
      forall_apply_eq_imp_iff₂]
    · exact hshown
    · exact hcounting
    · exact hmethods
    · intro t _ key hkey
      obtain ⟨hkey, hcounts, _⟩ := (mem_foreignKeys_definition_iff ho hcompare).1 hkey
      exact (htable (hlinked.joined key hkey).2).2 (htargets key hkey hcounts)

variable (hattached : s.IsAttached) (hsimple : s.IsSimple) (hindexes : o.compareIndexes = true)
  (hlive : Sqlite.IsSchemaReadFrom live (s.creation o))

include ho hnamed hlinked hcompare hattached hsimple hindexes hlive

/-- A schema that was read back asks for no statement exactly if all of it was told. -/
theorem tableDiffs_read_eq_nil_iff :
    (s.diff live o).tableDiffs = [] ↔ Sqlite.ReadsBack (s.creation o) := by
  have hdrop := tablesToDrop_read_eq_nil ho hlive hnamed.tables
  have hkeys : (s.diff live o).tablesToCreate = [] →
      ((∀ r ∈ (s.diff live o).relationships, (s.diff live o).droppedKey? r = none ∧
        (s.diff live o).addedKey? r = none) ↔ (s.diff live o).relationships = []) := by
    intro hcreate
    simp only [List.eq_nil_iff_forall_not_mem, SchemaDiff.droppedKey?, SchemaDiff.addedKey?, hdrop, hcreate]
    refine forall_congr' fun r => ?_
    cases r.change <;> simp [Change.old?, Change.new?]
  rw [SchemaDiff.tableDiffs_eq_nil_iff, readsBack_creation_iff ho hnamed hlinked hcompare,
    ← tablesToCreate_read_eq_nil_iff ho hlive]
  refine and_congr_right fun hcreate => ?_
  have hshown := (tablesToCreate_read_eq_nil_iff ho hlive).1 hcreate
  rw [columns_read_eq_nil_iff ho hnamed hattached hlive hsimple hshown,
    indexes_read_eq_nil_iff ho hnamed hattached hlive hshown hindexes, hkeys hcreate,
    relationships_diff_eq_nil_iff, forall_prop_of_true hcompare, DiffOptions.fold_of_exact ho,
    agrees_relationships_read_iff ho hnamed hlive hlinked hcompare hshown]

end Result

end Schema

end EntitySql
