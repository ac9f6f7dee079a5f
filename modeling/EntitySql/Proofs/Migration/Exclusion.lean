import EntitySql.Proofs.Migration.CreationOrder
import EntitySql.Proofs.Migration.Freshness
/-!
# Tables that are left alone

A synchronization and a recreation of all tables leave some tables alone: those of the history and those
that are excluded by name. What is compared leaves them out, so nothing creates them, changes their columns
or gives them an index or a foreign key. The one way to reach such a table is a foreign key: keys are
matched by name alone, and one that has to be altered is dropped from the table that it is found at, whether
that table counts or not (`Migrator.spares_excluded_iff`).
-/

namespace EntitySql

/-- The tables that a statement creates, drops, changes or indexes. A foreign key changes the table that
declares it, and a remark changes none. -/
def Ddl.tables (d : Dialect) : Ddl → List String
  | createTable definition _ => [definition.table.name]
  | renameTable old new => [old, new]
  | dropTable table _ _ | addColumn table _ | dropColumn table _ | renameColumn table _ _
  | setType table _ _ | setNullable table _ _ | setDefault table _ _ | addUnique table _
  | dropUnique table _ | modifyColumn table _ => [table]
  | createIndex index _ | dropIndex index => [index.table]
  | addForeignKey key | dropForeignKey key =>
    if d.alterForeignKeys then [key.referencing.table] else []
  | lostDataRemark _ _ | lostIndexRemark _ => []

/-- Whether none of the statements creates, drops, changes or indexes one of the tables. -/
def Ddl.Spares (d : Dialect) (tables : List String) (statements : List Ddl) : Prop :=
  ∀ statement ∈ statements, ∀ table ∈ statement.tables d, table ∉ tables

instance (d : Dialect) (tables : List String) (statements : List Ddl) :
    Decidable (Ddl.Spares d tables statements) :=
  inferInstanceAs (Decidable (∀ statement ∈ statements, ∀ table ∈ statement.tables d, table ∉ tables))

/-! ## What the statements of differences reach -/

section Reach

variable {d : Dialect} {tables : List String}

theorem ColumnChange.tables_of_mem_ddl {table : String} {c : ColumnChange} :
    ∀ s ∈ c.ddl d table, s.tables d = [table] := by
  apply ColumnChange.forall_mem_ddl
  all_goals
    intros
    rfl

theorem Ddl.spares_append {front back : List Ddl} :
    Spares d tables (front ++ back) ↔ Spares d tables front ∧ Spares d tables back :=
  List.forall_mem_append

theorem Ddl.spares_flatMap {α : Type} {f : α → List Ddl} {items : List α} :
    Spares d tables (items.flatMap f) ↔ ∀ a ∈ items, Spares d tables (f a) :=
  List.forall_mem_flatMap

/-- Creating a table reaches that table and those that its indexes are attached to. -/
theorem TableDefinition.spares_statements_iff {definition : TableDefinition} {guarded : Bool} :
    Ddl.Spares d tables (definition.statements guarded) ↔
      definition.table.name ∉ tables ∧ ∀ i ∈ definition.table.indexes, i.table ∉ tables := by
  simp only [Ddl.Spares, statements, List.forall_mem_cons, List.forall_mem_map, Ddl.tables,
    List.not_mem_nil, IsEmpty.forall_iff, implies_true, and_true]

/-- Changes of a table reach that table, where its columns change, and whatever their indexes and foreign
keys are attached to. -/
theorem TableChanges.spares_ddl_iff {table : String} {c : TableChanges} :
    Ddl.Spares d tables (c.ddl d table) ↔
      (d.alterForeignKeys = true → ∀ key ∈ c.dropForeignKeys, key.referencing.table ∉ tables) ∧
      (∀ i ∈ c.dropIndexes, i.table ∉ tables) ∧
      (∀ column ∈ c.addColumns, table ∉ tables) ∧
      (∀ change ∈ c.alterColumns, change.ddl d table ≠ [] → table ∉ tables) ∧
      (∀ column ∈ c.dropColumns, table ∉ tables) ∧
      (∀ i ∈ c.addIndexes, i.table ∉ tables) ∧
      (d.alterForeignKeys = true → ∀ key ∈ c.addForeignKeys, key.referencing.table ∉ tables) := by
  have haltered : ∀ change : ColumnChange, Ddl.Spares d tables (change.ddl d table) ↔
      (change.ddl d table ≠ [] → table ∉ tables) := by
    intro change
    constructor
    · intro h hne
      obtain ⟨s, hs⟩ := List.exists_mem_of_ne_nil _ hne
      apply h s hs table
      rw [ColumnChange.tables_of_mem_ddl s hs]
      exact .head _
    · intro h s hs
      rw [ColumnChange.tables_of_mem_ddl s hs]
      exact List.forall_mem_singleton.2 (h (List.ne_nil_of_mem hs))
  have hkeys : ∀ keys : List Relationship,
      (∀ key ∈ keys, ∀ name ∈ (if d.alterForeignKeys then [key.referencing.table] else []),
        name ∉ tables) ↔
      (d.alterForeignKeys = true → ∀ key ∈ keys, key.referencing.table ∉ tables) := by
    intro keys
    cases d.alterForeignKeys <;> simp
  simp only [ddl, Ddl.spares_append, Ddl.spares_flatMap, haltered]
  simp only [Ddl.Spares, List.forall_mem_map, Ddl.tables, hkeys, List.forall_mem_singleton, and_assoc]

end Reach

namespace Schema

variable {desired live : Schema} {o : DiffOptions}

/-! ## What is compared -/

theorem excludes_of_mem_matchedTables {pair : Table × Table} (h : pair ∈ matchedTables desired live o) :
    o.excludes pair.1.name = false := by
  obtain ⟨hcompared, _⟩ := mem_matchedTables.1 h
  simpa using (List.mem_filter.1 hcompared).2

/-- Columns are compared in tables that count. -/
theorem excludes_of_mem_columns {entry : String × Difference Column}
    (h : entry ∈ (desired.diff live o).columns) : o.excludes entry.1 = false := by
  simp only [diff, List.mem_flatMap, List.mem_map] at h
  obtain ⟨pair, hpair, difference, _, rfl⟩ := h
  exact excludes_of_mem_matchedTables hpair

theorem excludes_of_mem_ofTable {table : String} {change : Change Column}
    (h : change ∈ SchemaDiff.ofTable table (desired.diff live o).columns) :
    o.excludes table = false := by
  obtain ⟨entry, hentry, _⟩ := List.mem_map.1 h
  obtain ⟨hentry, hname⟩ := List.mem_filter.1 hentry
  exact beq_iff_eq.1 hname ▸ excludes_of_mem_columns hentry

/-- Tables that are left out are not dropped. -/
theorem excludes_of_mem_tablesToDrop {t : Table} (h : t ∈ (desired.diff live o).tablesToDrop) :
    o.excludes t.name = false := by
  obtain ⟨hcompared, _⟩ := mem_tablesToDrop.1 h
  simpa using (List.mem_filter.1 hcompared).2

/-- A desired foreign key that is created or altered belongs to a table that counts. -/
theorem excludes_of_new? {r : Difference Relationship} (hr : r ∈ (desired.diff live o).relationships)
    {key : Relationship} (hnew : r.change.new? = some key) :
    o.excludes key.referencing.table = false := by
  obtain ⟨_, hrequires⟩ := mem_relationships_diff.1 (List.mem_map.2 ⟨r, hr, rfl⟩)
  simpa using (hrequires.desired_of_new? hnew).2

/-- The indexes that tables which count are given are their own. -/
theorem excludes_of_mem_addIndexes (ho : o.ignoreCase = false) (hcompare : o.compareIndexes = true)
    (hdesired : desired.tables.IsNamed Table.name) (hwanted : desired.IsAttached) {table : String}
    {i : Index} (hi : i ∈ ((desired.diff live o).changesOf table).addIndexes) :
    o.excludes i.table = false := by
  obtain ⟨new, old, hmatch, _, change, hrequires, hnew⟩ := (mem_addIndexes_iff ho hcompare).1 hi
  have hmem : new ∈ desired.tables.values :=
    Assoc.mem_values_of_get? ((mem_matched_iff ho hdesired).1 hmatch).1
  have howner : i.table = new.name := hwanted new hmem i (hrequires.desired_of_new? hnew).1
  have hcounts := excludes_of_mem_matchedTables hmatch
  exact (congrArg o.excludes howner).trans hcounts

/-- The indexes that tables which count lose are their own, if every index of the live schema is attached to
its table. -/
theorem excludes_of_mem_indexes (ho : o.ignoreCase = false)
    (hdesired : desired.tables.IsNamed Table.name) (hlive : live.tables.IsNamed Table.name)
    (hattached : live.IsAttached) {entry : String × Difference Index}
    (h : entry ∈ (desired.diff live o).indexes) {old : Index}
    (hold : entry.2.change.old? = some old) : o.excludes old.table = false := by
  have hcompare : o.compareIndexes = true := by
    simp only [diff] at h
    split at h
    · assumption
    · cases h
  obtain ⟨new, current, hmatch, _, hrequires⟩ := (exists_matched_iff_mem_indexes ho hcompare).1
    (SchemaDiff.mem_ofTable_of_mem h)
  obtain ⟨_, hcounts, hfound⟩ := (mem_matched_iff ho hdesired).1 hmatch
  have howner : old.table = new.name :=
    (hattached current (Assoc.mem_values_of_get? hfound) old (hrequires.current_of_old? hold).1).trans
      (hlive _ _ hfound)
  exact (congrArg o.excludes howner).trans hcounts

end Schema

namespace Migrator

variable {σ : Type} {m : Migrator σ} {s : σ} {d : Dialect} {desired live : Schema}
  {options : SyncOptions}

/-- The changes of a table reach tables that are left alone only where foreign keys and indexes stood that
they drop. -/
theorem spares_changesOf_iff (hdesired : desired.tables.IsNamed Table.name)
    (hwanted : desired.IsAttached) {table : String} {c : TableChanges}
    (hc : c = (desired.diff live m.diffOptions).changesOf table) :
    Ddl.Spares d m.excludedTables ((options.restrict c).ddl d table) ↔
      (d.alterForeignKeys = true →
        ∀ key ∈ c.dropForeignKeys, key.referencing.table ∉ m.excludedTables) ∧
      (options.isDestructive = true → ∀ i ∈ c.dropIndexes, i.table ∉ m.excludedTables) := by
  have hunchanged : table ∈ m.excludedTables →
      c.addColumns = [] ∧ c.alterColumns = [] ∧ c.dropColumns = [] := by
    intro hexcluded
    have hnone : SchemaDiff.ofTable table (desired.diff live m.diffOptions).columns = [] := by
      apply List.eq_nil_iff_forall_not_mem.2
      intro change hchange
      exact excludes_diffOptions.1 (Schema.excludes_of_mem_ofTable hchange) hexcluded
    rw [hc]
    simp only [TableChanges.addColumns, TableChanges.alterColumns, TableChanges.dropColumns,
      SchemaDiff.changesOf, SchemaDiff.getD_nonEmpty?, hnone, List.filterMap_nil, and_self]
  have hindexes : ∀ i ∈ c.addIndexes, i.table ∉ m.excludedTables := by
    intro i hi
    exact excludes_diffOptions.1
      (Schema.excludes_of_mem_addIndexes rfl rfl hdesired hwanted (hc ▸ hi))
  have hkeys : ∀ key ∈ c.addForeignKeys, key.referencing.table ∉ m.excludedTables := by
    intro key hkey
    obtain ⟨⟨r, hr, hadded⟩, _⟩ := SchemaDiff.mem_addForeignKeys_changesOf.1 (hc ▸ hkey)
    exact excludes_diffOptions.1
      (Schema.excludes_of_new? hr (SchemaDiff.addedKey?_eq_some_iff.1 hadded).1)
  rw [TableChanges.spares_ddl_iff]
  simp only [SyncOptions.addColumns_restrict, SyncOptions.alterColumns_restrict,
    SyncOptions.dropColumns_restrict, SyncOptions.addIndexes_restrict, SyncOptions.dropIndexes_restrict,
    SyncOptions.addForeignKeys_restrict, SyncOptions.dropForeignKeys_restrict]
  have hdropped : (∀ i ∈ (if options.isDestructive then c.dropIndexes else []),
        i.table ∉ m.excludedTables) ↔
      (options.isDestructive = true → ∀ i ∈ c.dropIndexes, i.table ∉ m.excludedTables) := by
    split <;> simp [*]
  rw [hdropped]
  refine ⟨fun h => ⟨h.1, h.2.1⟩, fun h => ⟨h.1, h.2, ?_, ?_, ?_, hindexes, fun _ => hkeys⟩⟩
  · intro column hcolumn hexcluded
    simp [(hunchanged hexcluded).1] at hcolumn
  · intro change hchange _ hexcluded
    simp [(hunchanged hexcluded).2.1] at hchange
  · intro column hcolumn hexcluded
    simp [(hunchanged hexcluded).2.2] at hcolumn

/-- Creating a table that counts reaches no other one. -/
theorem spares_definitionOf (hdesired : desired.tables.IsNamed Table.name)
    (hwanted : desired.IsAttached) {t : Table}
    (ht : t ∈ (desired.diff live m.diffOptions).tablesToCreate) :
    Ddl.Spares d m.excludedTables
      (((desired.diff live m.diffOptions).definitionOf t).statements false) := by
  obtain ⟨hget, hcounts⟩ := (Schema.mem_comparedTables hdesired).1 (Schema.mem_tablesToCreate.1 ht).1
  have hname : t.name ∉ m.excludedTables := excludes_diffOptions.1 hcounts
  refine TableDefinition.spares_statements_iff.2 ⟨hname, fun i hi => ?_⟩
  rw [hwanted t (Assoc.mem_values_of_get? hget) i hi]
  exact hname

/-- The allowed differences reach no table that is left alone exactly if no foreign key of such a table is
altered and no index that is dropped claims to be attached to one. -/
theorem spares_allowedDiffs_iff (hdesired : desired.tables.IsNamed Table.name)
    (hwanted : desired.IsAttached) :
    Ddl.Spares d m.excludedTables ((m.allowedDiffs options desired live).flatMap (TableDiff.ddl d)) ↔
      (d.alterForeignKeys = true →
        ∀ r ∈ (desired.diff live m.diffOptions).relationships, ∀ old, r.change.old? = some old →
          old.referencing.table ∉ m.excludedTables) ∧
      (options.isDestructive = true →
        ∀ entry ∈ (desired.diff live m.diffOptions).indexes, ∀ old, entry.2.change.old? = some old →
          old.table ∉ m.excludedTables) := by
  let diff := desired.diff live m.diffOptions
  have hparts : Ddl.Spares d m.excludedTables
      ((m.allowedDiffs options desired live).flatMap (TableDiff.ddl d)) ↔
        ∀ table ∈ diff.changedTables,
          Ddl.Spares d m.excludedTables ((options.restrict (diff.changesOf table)).ddl d table) := by
    rw [Ddl.spares_flatMap, allowedDiffs_eq, List.forall_mem_append, List.forall_mem_map,
      List.forall_mem_map]
    exact and_iff_right fun t ht => spares_definitionOf hdesired hwanted ht
  rw [hparts]
  constructor
  · intro h
    constructor
    · intro halters r hr old hold hexcluded
      have hstays : old.referencing.table ∉ diff.tablesToDrop.map (·.name) := by
        intro hdropped
        obtain ⟨t, ht, hname⟩ := List.mem_map.1 hdropped
        exact excludes_diffOptions.1 (Schema.excludes_of_mem_tablesToDrop ht) (hname ▸ hexcluded)
      have hdropped := SchemaDiff.droppedKey?_eq_some_iff.2 ⟨hold, hstays⟩
      have hchanged : old.referencing.table ∈ diff.changedTables :=
        SchemaDiff.mem_changedTables_of_key hr (.inl hdropped)
      have hspares := (spares_changesOf_iff hdesired hwanted rfl).1 (h _ hchanged)
      exact hspares.1 halters old (SchemaDiff.mem_dropForeignKeys_changesOf.2 ⟨⟨r, hr, hdropped⟩, rfl⟩)
        hexcluded
    · intro hdestructive entry hentry old hold
      have hchanged : entry.1 ∈ diff.changedTables :=
        SchemaDiff.mem_changedTables_of_index hentry
      have hspares := (spares_changesOf_iff hdesired hwanted rfl).1 (h _ hchanged)
      exact hspares.2 hdestructive old
        (SchemaDiff.mem_dropIndexes_changesOf.2 ⟨_, SchemaDiff.mem_ofTable_of_mem hentry, hold⟩)
  · rintro ⟨hkeys, hindexes⟩ table -
    refine (spares_changesOf_iff hdesired hwanted rfl).2
      ⟨fun halters key hkey => ?_, fun hdestructive i hi => ?_⟩
    · obtain ⟨⟨r, hr, hdropped⟩, -⟩ := SchemaDiff.mem_dropForeignKeys_changesOf.1 hkey
      exact hkeys halters r hr key (SchemaDiff.droppedKey?_eq_some_iff.1 hdropped).1
    · obtain ⟨change, hchange, hold⟩ := SchemaDiff.mem_dropIndexes_changesOf.1 hi
      obtain ⟨entry, hentry, rfl⟩ := List.mem_map.1 hchange
      exact hindexes hdestructive entry (List.mem_filter.1 hentry).1 i hold

/-- What drops and creates all tables keeps to tables that count. -/
theorem spares_recreateDdl (hdesired : desired.tables.IsNamed Table.name) (hwanted : desired.IsAttached) :
    Ddl.Spares d m.excludedTables (m.recreateDdl desired) := by
  have hcounts : ∀ t ∈ desired.sortedTables.filter fun t => !m.excludedTables.contains t.name,
      t ∈ desired.tables.values ∧ t.name ∉ m.excludedTables := by
    intro t ht
    obtain ⟨hmem, hname⟩ := List.mem_filter.1 ht
    exact ⟨(desired.sortedTables_perm hdesired).mem_iff.1 hmem, by simpa using hname⟩
  refine Ddl.spares_append.2 ⟨?_, Ddl.spares_flatMap.2 fun t ht => ?_⟩
  · intro statement hstatement
    obtain ⟨t, ht, rfl⟩ := List.mem_map.1 hstatement
    exact List.forall_mem_singleton.2 (hcounts t (List.mem_reverse.1 ht)).2
  · obtain ⟨hmem, hname⟩ := hcounts t ht
    refine TableDefinition.spares_statements_iff.2 ⟨hname, fun i hi => ?_⟩
    rw [hwanted t hmem i hi]
    exact hname

/-- What a synchronization returns or would run leaves the excluded tables and those of the history alone,
exactly if no foreign key of such a table is altered and no index that is dropped claims to be attached to
one. No index does where the live schema attaches indexes to their tables. What drops and creates all tables
leaves those tables alone in any case. -/
theorem spares_excluded_iff (h : m.Syncs m.querier s d desired live) {statements : List Ddl}
    (hddl : m.syncDdl d options desired live = .ok statements) :
    let diff := (desired.normalizeTypes d).diff live m.diffOptions
    (m.syncStatements m.querier options s).1 = .ok (statements.map (·.render d)) ∧
      (∀ s₀ texts, m.acquire s₀ = (.ok (), s) →
        (m.autoSync options s₀).1 = .ok texts ∨ (m.diffStatements options s₀).1 = .ok texts →
          texts = statements.map (·.render d)) ∧
      (Ddl.Spares d m.excludedTables statements ↔
        (d.alterForeignKeys = true → ∀ r ∈ diff.relationships, ∀ old, r.change.old? = some old →
          old.referencing.table ∉ m.excludedTables) ∧
        (options.isDestructive = true → ∀ entry ∈ diff.indexes, ∀ old,
          entry.2.change.old? = some old → old.table ∉ m.excludedTables)) ∧
      (live.tables.IsNamed Table.name → live.IsAttached →
        ∀ entry ∈ diff.indexes, ∀ old, entry.2.change.old? = some old →
          old.table ∉ m.excludedTables) ∧
      (∀ s₀ texts, (m.syncForce s₀).1 = .ok texts →
        texts = (m.recreateDdl desired).map (·.render d)) ∧
      Ddl.Spares d m.excludedTables (m.recreateDdl desired) := by
  intro diff
  have hlinking := Registry.linking_schemaBy h.built
  have hnamed := (hlinking.named.normalizeTypes d).tables
  have hattached := Registry.isAttached_schemaBy h.built
  have htexts := h.syncStatements_of_syncDdl hddl
  refine ⟨htexts, ?_, ?_, ?_, ?_, spares_recreateDdl hlinking.named.tables hattached⟩
  · intro s₀ texts hacquired hresult
    obtain ⟨s', hacquired', hresult⟩ := syncStatements_of_result hresult
    obtain rfl : s = s' := congrArg Prod.snd (hacquired.symm.trans hacquired')
    exact Except.ok.inj (hresult.symm.trans htexts)
  · rw [TableDiff.ddl_of_allStatements_eq_ok hddl]
    exact spares_allowedDiffs_iff hnamed (hattached.normalizeTypes d)
  · intro hlive hindexes entry hentry old hold
    exact excludes_diffOptions.1
      (Schema.excludes_of_mem_indexes rfl hnamed hlive hindexes hentry hold)
  · intro s₀ texts hresult
    exact Except.ok.inj
      ((recreateStatements_of_result h.kind hresult).symm.trans (recreateStatements_eq h.built d))

/-- An audit refers to the user who logs. -/
def auditRegistry : Registry :=
  Registry.ofList
    [{ name := "User", fields := Assoc.ofPairs [("id", { type := .integer })] },
      { name := "audit"
        fields := Assoc.ofPairs
          [("id", { type := .integer }),
            ("log_user", { type := .integer, reference? := some { entity := "User" } })] }]

/-- Audits that refer to nobody yet, beside an old log whose entries refer to users through a foreign key of
the given name. -/
def liveAudits (key : String) : Schema :=
  let id : Column := { name := "id", type := .integer .regular, isPrimaryKey := true }
  let log : Table :=
    (Table.addColumn { name := "audit_log" } id).addColumn { name := "user", type := .integer .regular }
  Schema.addForeignKey
    (((Schema.addTable {} (Table.addColumn { name := "User" } id)).addTable
      (Table.addColumn { name := "audit" } id)).addTable log)
    { name := key
      referencing := { table := "audit_log", columns := ["user"] }
      referenced := { table := "User", columns := ["id"] } }

/-- A migrator for audits that leaves the old log alone. -/
def auditMigrator (key : String) : Migrator Unit :=
  { against auditRegistry (liveAudits key) .postgres ["querykit_migrations"] with
    excludeTables := ["audit_log"] }

/-- A foreign key of the old log that is called differently stays. -/
theorem spares_excluded_iff_audits :
    let m := auditMigrator "audit_log_user_fkey"
    let live := liveAudits "audit_log_user_fkey"
    ∃ desired statements, m.Syncs m.querier () .postgres desired live ∧
      m.syncDdl .postgres { safe := false, drop := true } desired live = .ok statements ∧
      (m.syncStatements m.querier { safe := false, drop := true } ()).1 =
        .ok (statements.map (·.render .postgres)) ∧
      Ddl.Spares .postgres ["querykit_migrations", "audit_log"] statements ∧ statements ≠ [] ∧
      Ddl.Spares .postgres ["querykit_migrations", "audit_log"] (m.recreateDdl desired) := by
  intro m live
  obtain ⟨desired, hbuilt⟩ : ∃ desired, m.registry.schema = .ok desired := ⟨_, rfl⟩
  have hsyncs : m.Syncs m.querier () .postgres desired live :=
    { kind := rfl, built := hbuilt, reads := ⟨_, rfl, (), rfl⟩ }
  have hddl := m.syncDdl_eq (d := .postgres) rfl { safe := false, drop := true } desired live
  obtain ⟨htexts, _, hspares, hindexes, _, hrecreate⟩ := spares_excluded_iff hsyncs hddl
  have hlive : live.tables.IsNamed Table.name := by decide +kernel
  have hattached : live.IsAttached := by decide +kernel
  have hkeys : ∀ r ∈ ((desired.normalizeTypes .postgres).diff live m.diffOptions).relationships,
      ∀ old, r.change.old? = some old → old.referencing.table ∉ m.excludedTables := by
    cases hbuilt
    decide +kernel
  refine ⟨desired, _, hsyncs, hddl, htexts,
    hspares.2 ⟨fun _ => hkeys, fun _ => hindexes hlive hattached⟩, ?_, hrecreate⟩
  cases hbuilt
  decide +kernel

/-- A foreign key of the old log that has the name of the new one is dropped from the log. -/
theorem reaches_excluded_log :
    let m := auditMigrator "fk_audit_log_user"
    let live := liveAudits "fk_audit_log_user"
    ∃ desired statements, m.Syncs m.querier () .postgres desired live ∧
      m.syncDdl .postgres {} desired live = .ok statements ∧
      (m.syncStatements m.querier {} ()).1 = .ok (statements.map (·.render .postgres)) ∧
      "audit_log" ∈ m.excludedTables ∧ ¬Ddl.Spares .postgres m.excludedTables statements := by
  intro m live
  obtain ⟨desired, hbuilt⟩ : ∃ desired, m.registry.schema = .ok desired := ⟨_, rfl⟩
  have hsyncs : m.Syncs m.querier () .postgres desired live :=
    { kind := rfl, built := hbuilt, reads := ⟨_, rfl, (), rfl⟩ }
  have hddl := m.syncDdl_eq (d := .postgres) rfl {} desired live
  refine ⟨desired, _, hsyncs, hddl, hsyncs.syncStatements_of_syncDdl hddl, by decide, ?_⟩
  cases hbuilt
  decide +kernel

end Migrator

end EntitySql
