import EntitySql.Proofs.Migration.CreationOrder
import EntitySql.Proofs.Sqlite.Database
import EntitySql.Proofs.Sqlite.EntityTables
import EntitySql.Proofs.Sqlite.ReadBack
/-!
# Synchronizing SQLite twice

The first synchronization of an empty database creates all tables. What SQLite then reports is read back, and a
second synchronization finds nothing to do exactly if all that was created is told in a way that is read as it
was meant (`Migrator.syncsOnce_iff`).
-/

namespace EntitySql

/-! ## Synchronizations that find nothing to do -/

namespace TableDiff

/-- Whether nothing is asked for but to drop columns and indexes. -/
def OnlyDrops : TableDiff → Prop
  | create _ _ => False
  | alter _ c => c.addColumns = [] ∧ c.alterColumns = [] ∧ c.addIndexes = [] ∧ c.addForeignKeys = [] ∧
      c.dropForeignKeys = []

theorem onlyDrops_withoutDrops_iff {t : TableDiff} : t.withoutDrops.OnlyDrops ↔ t.OnlyDrops := by
  cases t <;> exact Iff.rfl

/-- SQLite has no statement that alters a column. -/
theorem onlyDrops_of_statements_eq_nil {t : TableDiff} (h : t.statements .sqlite = .ok []) : t.OnlyDrops := by
  rcases t with ⟨_, _ | definition⟩ | ⟨table, c⟩
  · cases h
  · cases h
  · obtain ⟨altered, haltered, hnil⟩ := ok_of_bind_eq_ok h
    have hcolumns : c.alterColumns = [] := by
      cases hchanges : c.alterColumns with
      | nil => rfl
      | cons change rest =>
        rw [hchanges, ColumnChange.allStatements, List.mapM_cons] at haltered
        cases haltered
    have hall := Except.ok.inj hnil
    simp only [List.append_eq_nil_iff, List.map_eq_nil_iff] at hall
    obtain ⟨⟨⟨⟨⟨⟨hdropKeys, _⟩, hadd⟩, _⟩, _⟩, haddIndexes⟩, haddKeys⟩ := hall
    exact ⟨hadd, hcolumns, haddIndexes, haddKeys, hdropKeys⟩

/-- Without a statement none of the differences asks for one. -/
theorem allStatements_eq_nil_iff {d : Dialect} {diffs : List TableDiff} :
    allStatements d diffs = .ok [] ↔ ∀ t ∈ diffs, t.statements d = .ok [] := by
  induction diffs with
  | nil => exact ⟨fun _ => nofun, fun _ => rfl⟩
  | cons t rest ih =>
    rw [allStatements] at ih ⊢
    rw [flatten_mapM_cons, List.forall_mem_cons, ← ih]
    constructor
    · intro h
      obtain ⟨part, hpart, h⟩ := ok_of_bind_eq_ok h
      obtain ⟨parts, hparts, h⟩ := ok_of_bind_eq_ok h
      obtain ⟨rfl, rfl⟩ := List.append_eq_nil_iff.1 (Except.ok.inj h)
      exact ⟨hpart, hparts⟩
    · rintro ⟨hpart, hparts⟩
      rw [hpart, hparts]
      rfl

end TableDiff

/-- Where no column and no index has to be dropped, nothing but drops is nothing. -/
theorem SchemaDiff.tableDiffs_eq_nil_of_onlyDrops {d : SchemaDiff}
    (hcolumns : ∀ entry ∈ d.columns, entry.2.change.isDrop = false)
    (hindexes : ∀ entry ∈ d.indexes, entry.2.change.isDrop = false)
    (h : ∀ t ∈ d.tableDiffs, t.OnlyDrops) : d.tableDiffs = [] := by
  have hchanged : ∀ table ∈ d.changedTables, (TableDiff.alter table (d.changesOf table)).OnlyDrops :=
    fun table htable => h _ (mem_tableDiffs.2 (.inr ⟨table, htable, rfl⟩))
  refine tableDiffs_eq_nil_iff.2 ⟨?_, ?_, ?_, fun r hr => ⟨?_, ?_⟩⟩
  · exact List.eq_nil_iff_forall_not_mem.2 fun t ht => h _ (mem_tableDiffs.2 (.inl ⟨t, ht, rfl⟩))
  · refine List.eq_nil_iff_forall_not_mem.2 fun entry hentry => ?_
    obtain ⟨hadd, halter, _⟩ :=
      hchanged entry.1 (mem_changedTables_of_column hentry)
    have hmem := mem_ofTable_of_mem hentry
    have hdrop := hcolumns entry hentry
    cases hchange : entry.2.change with
    | create new =>
      refine List.not_mem_nil (hadd ▸ ?_ : new ∈ [])
      simp only [TableChanges.addColumns, changesOf, getD_nonEmpty?]
      exact List.mem_filterMap.2 ⟨_, hmem, addedColumn?_eq_some_iff.2 hchange⟩
    | alter old new =>
      refine List.not_mem_nil (halter ▸ ?_ : (⟨old, new⟩ : ColumnChange) ∈ [])
      simp only [TableChanges.alterColumns, changesOf, getD_nonEmpty?]
      exact List.mem_filterMap.2 ⟨_, hmem, alteredColumn?_eq_some_iff.2 hchange⟩
    | drop old =>
      rw [hchange] at hdrop
      cases hdrop
  · refine List.eq_nil_iff_forall_not_mem.2 fun entry hentry => ?_
    obtain ⟨_, _, hadd, _⟩ :=
      hchanged entry.1 (mem_changedTables_of_index hentry)
    have hmem := mem_ofTable_of_mem hentry
    have hdrop := hindexes entry hentry
    obtain ⟨new, hnew⟩ : ∃ new, entry.2.change.new? = some new := by
      cases hchange : entry.2.change with
      | create new | alter _ new => exact ⟨new, rfl⟩
      | drop old =>
        rw [hchange] at hdrop
        cases hdrop
    exact List.not_mem_nil (hadd ▸ mem_addIndexes_changesOf.2 ⟨_, hmem, hnew⟩)
  · refine Option.eq_none_iff_forall_not_mem.2 fun key hkey => ?_
    obtain ⟨_, _, _, _, hdrop⟩ := hchanged key.referencing.table
      (mem_changedTables_of_key hr (.inl hkey))
    exact List.not_mem_nil (hdrop ▸ mem_dropForeignKeys_changesOf.2 ⟨⟨r, hr, hkey⟩, rfl⟩)
  · refine Option.eq_none_iff_forall_not_mem.2 fun key hkey => ?_
    obtain ⟨_, _, _, hadd, _⟩ := hchanged key.referencing.table
      (mem_changedTables_of_key hr (.inr hkey))
    exact List.not_mem_nil (hadd ▸ mem_addForeignKeys_changesOf.2 ⟨⟨r, hr, hkey⟩, rfl⟩)

namespace Migrator

variable {σ : Type} {m : Migrator σ} {q : Querier σ} {desired live : Schema}

/-- Where no column and no index has to be dropped, a synchronization of SQLite has no statement exactly if there
is no difference, whatever it may do. -/
theorem syncDdl_sqlite_eq_nil_iff
    (hcolumns : ∀ entry ∈ ((desired.normalizeTypes .sqlite).diff live m.diffOptions).columns,
      entry.2.change.isDrop = false)
    (hindexes : ∀ entry ∈ ((desired.normalizeTypes .sqlite).diff live m.diffOptions).indexes,
      entry.2.change.isDrop = false) {options : SyncOptions} :
    m.syncDdl .sqlite options desired live = .ok [] ↔
      ((desired.normalizeTypes .sqlite).diff live m.diffOptions).tableDiffs = [] := by
  rw [syncDdl, allowedDiffs]
  constructor
  · intro h
    refine SchemaDiff.tableDiffs_eq_nil_of_onlyDrops hcolumns hindexes fun t ht => ?_
    have hnone := TableDiff.allStatements_eq_nil_iff.1 h
    split at hnone
    · exact TableDiff.onlyDrops_of_statements_eq_nil (hnone t ht)
    · exact TableDiff.onlyDrops_withoutDrops_iff.1
        (TableDiff.onlyDrops_of_statements_eq_nil (hnone _ (List.mem_map.2 ⟨t, ht, rfl⟩)))
  · intro h
    rw [h]
    split <;> rfl

/-- A migrator that reads the live schema of SQLite. -/
structure ReadsSqlite (m : Migrator σ) (q : Querier σ) : Prop where
  kind : q.kind = .sql .sqlite
  introspects : m.introspect? = some Sqlite.introspect

/-- What a synchronization sees after statements that create simple tables. -/
theorem ReadsSqlite.exists_syncs (h : m.ReadsSqlite q) (hbuilt : m.registry.schema = .ok desired) {s : σ}
    {statements : List Ddl} (hreports : Sqlite.Reports q s statements)
    (hsimple : Sqlite.CreatesSimple statements) :
    ∃ live, m.Syncs q s .sqlite desired live ∧ Sqlite.IsSchemaReadFrom live statements := by
  obtain ⟨live, hyields, hread⟩ := Sqlite.yields_introspect hsimple hreports
  exact ⟨live, ⟨h.kind, hbuilt, _, h.introspects, s, hyields⟩, hread⟩

/-- In an empty database nothing is read. -/
theorem ReadsSqlite.syncs_empty (h : m.ReadsSqlite q) (hbuilt : m.registry.schema = .ok desired) {s : σ}
    (hreports : Sqlite.Reports q s []) : m.Syncs q s .sqlite desired {} := by
  obtain ⟨names, hperm, rows, hyields, hrows⟩ := hreports.names
  obtain rfl := List.Perm.eq_nil hperm
  obtain rfl := List.forall₂_nil_right_iff.1 hrows
  have hnames : (Sqlite.tableNames q).Yields s [] := hyields.bind (.of_pure _)
  exact ⟨h.kind, hbuilt, _, h.introspects, s, hnames.bind (.of_pure _)⟩

/-- After a schema has been created a synchronization has nothing to do exactly if all of it is told. -/
theorem ReadsSqlite.syncStatements_eq_nil_iff (h : m.ReadsSqlite q) (hplain : m.registry.HasPlainFields)
    (hbuilt : m.registry.schema = .ok desired) {s : σ}
    (hreports : Sqlite.Reports q s ((desired.normalizeTypes .sqlite).creation m.diffOptions))
    (options : SyncOptions) :
    (m.syncStatements q options s).1 = .ok [] ↔
      Sqlite.ReadsBack ((desired.normalizeTypes .sqlite).creation m.diffOptions) := by
  have hlinking := Registry.linking_schemaBy hbuilt
  have hnamed := hlinking.named.normalizeTypes .sqlite
  have hlinked := hlinking.toIsLinked.normalizeTypes .sqlite
  have hattached := (Registry.isAttached_schemaBy hbuilt).normalizeTypes .sqlite
  have hsimple := Registry.isSimple_schema hplain hbuilt
  obtain ⟨live, hsyncs, hread⟩ :=
    h.exists_syncs hbuilt hreports (Schema.createsSimple_creation rfl rfl hnamed hsimple)
  have hnone : m.syncDdl .sqlite options desired live = .ok [] ↔ _ :=
    syncDdl_sqlite_eq_nil_iff (Schema.isDrop_columns_read rfl hnamed hattached hread hsimple)
      (Schema.isDrop_indexes_read rfl hnamed hattached hread rfl)
  rw [← Schema.tableDiffs_read_eq_nil_iff rfl hnamed hlinked rfl hattached hsimple rfl hread, ← hnone,
    hsyncs.syncStatements_eq]
  cases m.syncDdl .sqlite options desired live with
  | error e => simp
  | ok statements => simp

/-- A synchronization of an empty database creates the tables. Whatever a second one may do, it finds nothing to do
exactly if all that was created is told. -/
theorem syncsOnce_iff (h : m.ReadsSqlite q) (hplain : m.registry.HasPlainFields)
    (hbuilt : m.registry.schema = .ok desired) {empty : σ} (hempty : Sqlite.Reports q empty [])
    (first : SyncOptions) :
    ∃ statements, m.syncDdl .sqlite first desired {} = .ok statements ∧
      (m.syncStatements q first empty).1 = .ok (statements.map (·.render .sqlite)) ∧
      ∀ full, Sqlite.Reports q full statements → ∀ second : SyncOptions,
        ((m.syncStatements q second full).1 = .ok [] ↔ Sqlite.ReadsBack statements) := by
  have hlinking := Registry.linking_schemaBy hbuilt
  have hddl := syncDdl_creation (m := m) (d := .sqlite) hlinking.named hlinking.toIsLinked first
  exact ⟨_, hddl, (h.syncs_empty hbuilt hempty).syncStatements_of_syncDdl hddl,
    fun _ hreports second => h.syncStatements_eq_nil_iff hplain hbuilt hreports second⟩

/-- A migrator that synchronizes a database of SQLite with the entities. -/
def onSqlite (registry : Registry) : Migrator (List Ddl) where
  querier := Sqlite.database
  history :=
    { ensure := fun _ => pure ()
      executed := fun _ => pure []
      add := fun _ _ => pure ()
      remove := fun _ _ => pure ()
      tables := [] }
  introspect? := some Sqlite.introspect
  registry

/-- Books refer to their authors, who are counted up. -/
theorem syncsOnce_iff_books :
    let author : Entity :=
      { name := "Author"
        fields := Assoc.ofPairs [("id", { type := .integer, autoIncrement := true }),
          ("email", { type := .string, unique := true })] }
    let book : Entity :=
      { name := "Book"
        fields := Assoc.ofPairs [("id", { type := .uuid }), ("title", { type := .text, indexed := true }),
          ("author", { type := .integer, reference? := some { entity := "Author" } })] }
    let m := onSqlite (Registry.ofList [author, book])
    ∃ desired statements, m.ReadsSqlite m.querier ∧ m.registry.HasPlainFields ∧
      m.registry.schema = .ok desired ∧ Sqlite.Reports m.querier [] [] ∧
      (m.syncStatements m.querier {} []).1 = .ok (statements.map (·.render .sqlite)) ∧
      Sqlite.Reports m.querier statements statements ∧ Sqlite.ReadsBack statements ∧
      (m.syncStatements m.querier { safe := false, drop := true } statements).1 = .ok [] := by
  intro author book m
  obtain ⟨desired, hbuilt⟩ : ∃ desired, m.registry.schema = .ok desired := ⟨_, rfl⟩
  have hreads : m.ReadsSqlite m.querier := ⟨rfl, rfl⟩
  have hplain : m.registry.HasPlainFields := by decide +kernel
  have hempty : Sqlite.Reports m.querier [] [] := Sqlite.reports_database (by decide +kernel)
  obtain ⟨statements, hddl, hfirst, hsecond⟩ := syncsOnce_iff hreads hplain hbuilt hempty {}
  have hlinking := Registry.linking_schemaBy hbuilt
  have hcreation : (desired.normalizeTypes .sqlite).creation m.diffOptions = statements := Except.ok.inj
    ((syncDdl_creation hlinking.named hlinking.toIsLinked {}).symm.trans hddl)
  have hreports : Sqlite.Reports m.querier statements statements := by
    rw [← hcreation]
    cases hbuilt
    exact Sqlite.reports_database (by decide +kernel)
  have hback : Sqlite.ReadsBack statements := by
    rw [← hcreation]
    cases hbuilt
    decide +kernel
  exact ⟨desired, statements, hreads, hplain, hbuilt, hempty, hfirst, hreports, hback,
    (hsecond _ hreports _).2 hback⟩

/-- A column whose name speaks of counting up: the key is read as if it counted up, which no statement can
change. -/
theorem syncs_again_named_autoincrement :
    let counter : Entity :=
      { name := "Counter"
        fields := Assoc.ofPairs [("id", { type := .integer }), ("autoincrement", { type := .boolean })] }
    let m := onSqlite (Registry.ofList [counter])
    ∃ desired statements, m.ReadsSqlite m.querier ∧ m.registry.HasPlainFields ∧
      m.registry.schema = .ok desired ∧ Sqlite.Reports m.querier [] [] ∧
      m.syncDdl .sqlite {} desired {} = .ok statements ∧
      Sqlite.Reports m.querier statements statements ∧
      (m.syncStatements m.querier { safe := false, drop := true } statements).1 ≠ .ok [] := by
  intro counter m
  obtain ⟨desired, hbuilt⟩ : ∃ desired, m.registry.schema = .ok desired := ⟨_, rfl⟩
  have hreads : m.ReadsSqlite m.querier := ⟨rfl, rfl⟩
  have hplain : m.registry.HasPlainFields := by decide +kernel
  have hlinking := Registry.linking_schemaBy hbuilt
  have hreports : Sqlite.Reports m.querier ((desired.normalizeTypes .sqlite).creation m.diffOptions)
      ((desired.normalizeTypes .sqlite).creation m.diffOptions) := by
    cases hbuilt
    exact Sqlite.reports_database (by decide +kernel)
  have hback : ¬Sqlite.ReadsBack ((desired.normalizeTypes .sqlite).creation m.diffOptions) := by
    cases hbuilt
    decide +kernel
  exact ⟨desired, _, hreads, hplain, hbuilt, Sqlite.reports_database (by decide +kernel),
    syncDdl_creation hlinking.named hlinking.toIsLinked {}, hreports,
    mt (hreads.syncStatements_eq_nil_iff hplain hbuilt hreports _).1 hback⟩

end Migrator

end EntitySql
