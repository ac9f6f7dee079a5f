import EntitySql.Proofs.Migration.SyncStatements
import EntitySql.Proofs.Schema.Changes
import EntitySql.Proofs.Schema.FromRegistry
/-!
# Nothing is created twice

What a statement of a synchronization creates does not exist in the live schema or has been dropped by a
statement in front of it (`Ddl.CreatesFresh`). An index that is altered is dropped and created again, and
where indexes may not be dropped only the second half of that is left; so the law holds exactly if indexes
may be dropped or none is altered (`Migrator.createsFresh_iff`).
-/

namespace EntitySql

/-- Whether the item exists and differs from the desired one. -/
def Change.isAlter {α : Type} : Change α → Bool
  | alter _ _ => true
  | _ => false

/-- Whether everything that a statement creates is absent from the live schema or dropped in front. -/
def Ddl.CreatesFresh (d : Dialect) (live : Schema) (statements : List Ddl) : Prop :=
  EachAfter
    (fun before statement => ∀ o ∈ statement.created d,
      ¬live.Has o.name ∨ ∃ dropping ∈ before, dropping.drops d o.name = true)
    statements

instance (d : Dialect) (live : Schema) (statements : List Ddl) :
    Decidable (Ddl.CreatesFresh d live statements) :=
  inferInstanceAs (Decidable (EachAfter _ statements))

/-- The changes of a table that a synchronization may apply. -/
def SyncOptions.restrict (options : SyncOptions) (c : TableChanges) : TableChanges :=
  if options.isDestructive then c else c.withoutDrops

namespace SyncOptions

variable (options : SyncOptions) (c : TableChanges)

@[simp]
theorem addColumns_restrict : (options.restrict c).addColumns = c.addColumns := by
  unfold restrict
  split <;> rfl

@[simp]
theorem alterColumns_restrict : (options.restrict c).alterColumns = c.alterColumns := by
  unfold restrict
  split <;> rfl

theorem dropColumns_restrict :
    (options.restrict c).dropColumns = if options.isDestructive then c.dropColumns else [] := by
  unfold restrict
  split <;> rfl

theorem dropIndexes_restrict :
    (options.restrict c).dropIndexes = if options.isDestructive then c.dropIndexes else [] := by
  unfold restrict
  split <;> rfl

@[simp]
theorem addIndexes_restrict : (options.restrict c).addIndexes = c.addIndexes := by
  unfold restrict
  split <;> rfl

@[simp]
theorem addForeignKeys_restrict : (options.restrict c).addForeignKeys = c.addForeignKeys := by
  unfold restrict
  split <;> rfl

@[simp]
theorem dropForeignKeys_restrict : (options.restrict c).dropForeignKeys = c.dropForeignKeys := by
  unfold restrict
  split <;> rfl

end SyncOptions

namespace Migrator

variable {σ : Type} {m : Migrator σ} {d : Dialect} {desired live : Schema} {options : SyncOptions}

theorem allowedDiffs_eq (m : Migrator σ) (options : SyncOptions) (desired live : Schema) :
    m.allowedDiffs options desired live =
      ((desired.diff live m.diffOptions).tablesToCreate.map fun t =>
          .create t.name (some ((desired.diff live m.diffOptions).definitionOf t))) ++
        (desired.diff live m.diffOptions).changedTables.map fun table =>
          .alter table (options.restrict ((desired.diff live m.diffOptions).changesOf table)) := by
  unfold allowedDiffs SyncOptions.restrict
  split
  · rfl
  · simp only [SchemaDiff.tableDiffs, List.map_append, List.map_map]
    rfl

end Migrator

namespace Schema

variable {desired live : Schema} {o : DiffOptions} (ho : o.ignoreCase = false)
  (hdesired : desired.tables.IsNamed Table.name) (hlive : live.tables.IsNamed Table.name)

include ho hdesired

/-! ## What is created and did not exist -/

section Created

include hlive

/-- Nothing that comes with a created table existed. -/
theorem not_has_of_created (hwanted : desired.IsAttached) (hattached : live.IsAttached)
    (hcompare : o.compareRelationships = true) {t : Table}
    (ht : t ∈ (desired.diff live o).tablesToCreate) {d : Dialect} {object : SchemaObject}
    (h : ∃ s ∈ ((desired.diff live o).definitionOf t).statements false, object ∈ s.created d) :
    ¬live.Has object.name := by
  have hmissing : live.table? t.name = none :=
    Assoc.get?_eq_none_iff.2 ((mem_created_iff ho hdesired).1 (List.mem_map.2 ⟨t, ht, rfl⟩)).2.2
  have hmem : t ∈ desired.tables.values :=
    Assoc.mem_values_of_get? ((mem_comparedTables hdesired).1 (mem_tablesToCreate.1 ht).1).1
  rcases TableDefinition.mem_created_statements_iff.1 h with hobject | ⟨key, hkey, rfl⟩ | ⟨i, hi, rfl⟩
  · rcases List.mem_cons.1 hobject with rfl | hcolumn
    · rw [SchemaObject.name, has_table_iff hlive]
      exact Assoc.get?_eq_none_iff.1 hmissing
    · obtain ⟨c, hc, rfl⟩ := List.mem_map.1 hcolumn
      rw [SchemaObject.name, has_column_iff hlive]
      rintro ⟨_, hfound, _⟩
      cases hmissing.symm.trans hfound
  · rw [SchemaObject.name, has_foreignKey_iff]
    rintro ⟨old, hold, _, hname⟩
    exact ((mem_foreignKeys_definitionOf_iff ho hcompare).1 hkey).2.2.1 old hold hname
  · rw [SchemaObject.name, hwanted t hmem i hi, has_index_iff hlive hattached]
    rintro ⟨_, hfound, _⟩
    cases hmissing.symm.trans hfound

theorem not_has_of_mem_addColumns {name : String} {column : Column}
    (h : column ∈ ((desired.diff live o).changesOf name).addColumns) :
    ¬live.Has (.column name column.name) := by
  obtain ⟨new, old, hmatch, rfl, _, hnew⟩ := (mem_addColumns_iff ho).1 h
  rw [has_column_iff hlive, ((mem_matched_iff ho hdesired).1 hmatch).2.2]
  rintro ⟨_, ⟨⟩, c, hc, hname⟩
  exact hnew c hc hname

/-- An index that is created is new, or one of its name is dropped. -/
theorem not_has_or_of_mem_addIndexes (hwanted : desired.IsAttached) (hattached : live.IsAttached)
    (hcompare : o.compareIndexes = true) {name : String} {index : Index}
    (h : index ∈ ((desired.diff live o).changesOf name).addIndexes) :
    ¬live.Has (.index index.table index.name) ∨
      (∃ entry ∈ (desired.diff live o).indexes, entry.2.change.isAlter = true) ∧
        ∃ old ∈ ((desired.diff live o).changesOf name).dropIndexes,
          old.table = index.table ∧ old.name = index.name := by
  obtain ⟨new, old, hmatch, rfl, change, hrequires, hnew⟩ := (mem_addIndexes_iff ho hcompare).1 h
  obtain ⟨hget, _, hfound⟩ := (mem_matched_iff ho hdesired).1 hmatch
  have howner := hwanted new (Assoc.mem_values_of_get? hget) index (hrequires.desired_of_new? hnew).1
  cases change with
  | drop _ => cases hnew
  | create _ =>
    cases hnew
    refine .inl ?_
    rw [howner, has_index_iff hlive hattached, hfound]
    rintro ⟨_, ⟨⟩, i, hi, hname⟩
    exact ItemRules.find?_eq_none_iff.1 hrequires.2.2 i hi hname
  | alter was _ =>
    cases hnew
    have hchange := (exists_matched_iff_mem_indexes ho hcompare).2 ⟨new, old, hmatch, rfl, hrequires⟩
    obtain ⟨hwas, hname⟩ := hrequires.current_of_old? rfl
    refine .inr ⟨?_, was, ?_, ?_, hname.symm⟩
    · obtain ⟨entry, hentry, hchange⟩ := List.mem_map.1 hchange
      exact ⟨entry, (List.mem_filter.1 hentry).1, by rw [hchange]; rfl⟩
    · exact (mem_dropIndexes_iff ho hcompare).2 ⟨new, old, hmatch, rfl, _, hrequires, rfl⟩
    · rw [howner, hattached old (Assoc.mem_values_of_get? hfound) was hwas]
      exact hlive _ _ hfound

omit hdesired in
/-- A foreign key that is added to a table is new there, or one of its name is dropped. -/
theorem not_has_or_of_mem_addForeignKeys (hkeys : live.relationships.IsNamed Relationship.name)
    (hjoined : desired.IsLinked) {name : String} {key : Relationship}
    (h : key ∈ ((desired.diff live o).changesOf name).addForeignKeys) :
    ¬live.Has (.foreignKey key.referencing.table key.name) ∨
      ∃ old ∈ ((desired.diff live o).changesOf name).dropForeignKeys,
        old.referencing.table = key.referencing.table ∧ old.name = key.name := by
  obtain ⟨⟨r, hr, hadded⟩, rfl⟩ := SchemaDiff.mem_addForeignKeys_changesOf.1 h
  have hrequires := requires_of_mem ho hr
  have hnew := (SchemaDiff.addedKey?_eq_some_iff.1 hadded).1
  rw [has_foreignKey_iff]
  cases hchange : r.change with
  | drop _ => cases hchange ▸ hnew
  | create _ =>
    rw [hchange] at hrequires hnew
    cases hnew
    refine .inl ?_
    rintro ⟨old, hold, _, hname⟩
    exact ItemRules.find?_eq_none_iff.1 hrequires.2.2 old hold hname
  | alter was _ =>
    rw [hchange] at hrequires hnew
    cases hnew
    obtain ⟨hwas, hname⟩ := hrequires.current_of_old? rfl
    by_cases howner : was.referencing.table = key.referencing.table
    · refine .inr ⟨was, SchemaDiff.mem_dropForeignKeys_changesOf.2 ⟨⟨r, hr, ?_⟩, howner⟩, howner,
        hname.symm⟩
      refine SchemaDiff.droppedKey?_eq_some_iff.2 ⟨by rw [hchange]; rfl, fun hdropped => ?_⟩
      exact ((mem_dropped_iff ho hlive).1 hdropped).2.2 (howner ▸ (hjoined.joined key hrequires.1).1)
    · -- Only one relationship has the name, and it belongs to another table.
      refine .inl ?_
      rintro ⟨old, hold, hother, hsame⟩
      have hget := hkeys.get?_of_mem hold
      rw [show old.name = was.name from hsame.trans hname, hkeys.get?_of_mem hwas] at hget
      exact howner (Option.some.inj hget ▸ hother)

end Created

end Schema

namespace Migrator

variable {σ : Type} {m : Migrator σ} {d : Dialect} {desired live : Schema} {options : SyncOptions}

/-- What the changes of a table create is absent or dropped in front, unless an index is altered that may not
be dropped. -/
theorem eachAfter_restrict_changesOf (hdesired : desired.tables.IsNamed Table.name)
    (hwanted : desired.IsAttached) (hlinked : desired.IsLinked) (hlive : live.IsNamed)
    (hattached : live.IsAttached)
    (hindexes : options.isDestructive = true ∨
      ∀ entry ∈ (desired.diff live m.diffOptions).indexes, entry.2.change.isAlter = false)
    (name : String) :
    EachAfter (fun front statement => ∀ o ∈ statement.created d,
        ¬live.Has o.name ∨ ∃ dropping ∈ front, dropping.drops d o.name = true)
      ((options.restrict ((desired.diff live m.diffOptions).changesOf name)).ddl d name) := by
  refine TableChanges.eachAfter_ddl ?dropKeys ?dropIndexes ?addColumns ?idle ?dropColumns ?addIndexes
    ?addKeys
  case dropKeys | dropIndexes => exact fun _ _ _ _ => nofun
  case dropColumns => exact fun _ _ _ _ _ _ => nofun
  case idle =>
    intro front s hs o ho
    rw [hs.created] at ho
    cases ho
  case addColumns =>
    intro front column hcolumn o ho
    rw [options.addColumns_restrict] at hcolumn
    rw [List.mem_singleton.1 ho]
    exact .inl (Schema.not_has_of_mem_addColumns rfl hdesired hlive.tables hcolumn)
  case addIndexes =>
    intro front hdropped _ index hindex o ho
    rw [options.addIndexes_restrict] at hindex
    rw [List.mem_singleton.1 ho]
    refine (Schema.not_has_or_of_mem_addIndexes rfl hdesired hlive.tables hwanted hattached rfl
      hindex).imp_right ?_
    rintro ⟨⟨entry, hentry, halter⟩, old, hold, htable, hname⟩
    have hdestructive : options.isDestructive = true :=
      hindexes.resolve_right fun h => by simp [h entry hentry] at halter
    rw [SyncOptions.restrict, if_pos hdestructive] at hdropped
    exact ⟨_, hdropped old hold, by simp [Ddl.drops, SchemaObject.name, htable, hname]⟩
  case addKeys =>
    intro front hdropped _ key hkey o ho
    rw [options.addForeignKeys_restrict] at hkey
    rw [options.dropForeignKeys_restrict] at hdropped
    rw [Ddl.created] at ho
    split at ho
    · rw [List.mem_singleton.1 ho]
      refine (Schema.not_has_or_of_mem_addForeignKeys rfl hlive.tables hlive.relationships hlinked
        hkey).imp_right ?_
      rintro ⟨old, hold, htable, hname⟩
      refine ⟨_, hdropped old hold, ?_⟩
      simp [Ddl.drops, SchemaObject.name, htable, hname, ‹d.alterForeignKeys = true›]
    · cases ho

/-- What a synchronization creates is absent or dropped in front, unless an index is altered that may not
be dropped. -/
theorem createsFresh_of_mayDrop (hdesired : desired.tables.IsNamed Table.name)
    (hwanted : desired.IsAttached) (hlinked : desired.IsLinked) (hlive : live.IsNamed)
    (hattached : live.IsAttached)
    (hindexes : options.isDestructive = true ∨
      ∀ entry ∈ (desired.diff live m.diffOptions).indexes, entry.2.change.isAlter = false) :
    Ddl.CreatesFresh d live ((m.allowedDiffs options desired live).flatMap (TableDiff.ddl d)) := by
  rw [Ddl.CreatesFresh, EachAfter.flatMap_iff]
  refine .of_forall fun t ht before => ?_
  -- What is dropped by other tables need not be known.
  suffices EachAfter (fun front statement => ∀ o ∈ statement.created d,
      ¬live.Has o.name ∨ ∃ dropping ∈ front, dropping.drops d o.name = true) (t.ddl d) by
    refine this.mono fun front s _ _ h o ho => (h o ho).imp_right ?_
    rintro ⟨dropping, hmem, hdrops⟩
    exact ⟨dropping, List.mem_append_right _ hmem, hdrops⟩
  rw [allowedDiffs_eq, List.mem_append] at ht
  rcases ht with ht | ht
  · obtain ⟨created, hcreated, rfl⟩ := List.mem_map.1 ht
    refine .of_forall fun s hs front o ho => .inl ?_
    exact Schema.not_has_of_created rfl hdesired hlive.tables hwanted hattached rfl hcreated
      ⟨s, hs, ho⟩
  · obtain ⟨name, _, rfl⟩ := List.mem_map.1 ht
    exact eachAfter_restrict_changesOf hdesired hwanted hlinked hlive hattached hindexes name

/-- No index is dropped where nothing may be. -/
theorem drops_index_of_mem_allowedDiffs (hsafe : options.isDestructive = false) (table name : String) :
    ∀ s ∈ (m.allowedDiffs options desired live).flatMap (TableDiff.ddl d),
      s.drops d (.index table name) = false := by
  intro s hs
  obtain ⟨t, ht, hs⟩ := List.mem_flatMap.1 hs
  rw [allowedDiffs_eq, List.mem_append] at ht
  rcases ht with ht | ht
  · obtain ⟨_, _, rfl⟩ := List.mem_map.1 ht
    exact TableDefinition.drops_of_mem_statements s hs
  · obtain ⟨_, _, rfl⟩ := List.mem_map.1 ht
    rw [← Bool.not_eq_true]
    intro hdrops
    rcases TableChanges.drops_ddl_iff.1 ⟨s, hs, hdrops⟩ with ⟨_, _, _, h⟩ | ⟨_, h, _⟩ | ⟨_, _, h⟩
    · cases h
    · rw [SyncOptions.restrict, if_neg (by simp [hsafe])] at h
      cases h
    · cases h

/-- An index that is altered and may not be dropped is created while it exists. -/
theorem not_createsFresh_of_isAlter (hdesired : desired.tables.IsNamed Table.name)
    (hwanted : desired.IsAttached) (hlive : live.tables.IsNamed Table.name)
    (hattached : live.IsAttached) (hsafe : options.isDestructive = false)
    {entry : String × Difference Index}
    (hentry : entry ∈ (desired.diff live m.diffOptions).indexes)
    (halter : entry.2.change.isAlter = true) :
    ¬Ddl.CreatesFresh d live ((m.allowedDiffs options desired live).flatMap (TableDiff.ddl d)) := by
  obtain ⟨was, index, hchange⟩ : ∃ was index, entry.2.change = .alter was index := by
    cases hchange : entry.2.change <;> simp_all [Change.isAlter]
  obtain ⟨new, old, hmatch, hname, hrequires⟩ :=
    (Schema.exists_matched_iff_mem_indexes rfl rfl).1
      (List.mem_map.2 ⟨entry, List.mem_filter.2 ⟨hentry, beq_self_eq_true _⟩, hchange⟩)
  obtain ⟨hget, _, hfound⟩ := (Schema.mem_matched_iff rfl hdesired).1 hmatch
  have hadded : index ∈ ((desired.diff live m.diffOptions).changesOf new.name).addIndexes :=
    (Schema.mem_addIndexes_iff rfl rfl).2 ⟨new, old, hmatch, rfl, _, hrequires, rfl⟩
  have hhas : live.Has (.index index.table index.name) := by
    obtain ⟨hwas, hsame⟩ := hrequires.current_of_old? rfl
    rw [hwanted new (Assoc.mem_values_of_get? hget) index hrequires.1,
      Schema.has_index_iff hlive hattached]
    exact ⟨old, hfound, was, hwas, hsame.symm⟩
  have hcreating : .createIndex index false ∈
      (m.allowedDiffs options desired live).flatMap (TableDiff.ddl d) := by
    refine List.mem_flatMap.2
      ⟨.alter new.name (options.restrict ((desired.diff live m.diffOptions).changesOf new.name)), ?_, ?_⟩
    · rw [allowedDiffs_eq, List.mem_append]
      refine .inr (List.mem_map.2 ⟨new.name, SchemaDiff.mem_changedTables.2 (.inr (.inl ?_)), rfl⟩)
      exact List.mem_map.2 ⟨entry, hentry, hname.symm⟩
    · simp [TableDiff.ddl, TableChanges.ddl, hadded]
  intro hfresh
  obtain ⟨before, after, hsplit⟩ := List.append_of_mem hcreating
  rcases hfresh before _ after hsplit _ (.head _) with hmissing | ⟨dropping, hdropping, hdrops⟩
  · exact hmissing hhas
  · have hmem : dropping ∈ (m.allowedDiffs options desired live).flatMap (TableDiff.ddl d) :=
      hsplit ▸ List.mem_append_left _ hdropping
    exact Bool.false_ne_true ((drops_index_of_mem_allowedDiffs hsafe _ _ dropping hmem).symm.trans hdrops)

/-- The statements of a synchronization create nothing that exists by then, exactly if indexes may be dropped
or none is altered. -/
theorem createsFresh_iff {q : Querier σ} {s : σ} (h : m.Syncs q s d desired live)
    (hlive : live.IsNamed) (hattached : live.IsAttached) {statements : List Ddl}
    (hddl : m.syncDdl d options desired live = .ok statements) :
    (m.syncStatements q options s).1 = .ok (statements.map (·.render d)) ∧
      (Ddl.CreatesFresh d live statements ↔ options.isDestructive = true ∨
        ∀ entry ∈ ((desired.normalizeTypes d).diff live m.diffOptions).indexes,
          entry.2.change.isAlter = false) := by
  have hlinking := Registry.linking_schemaBy h.built
  have hnamed := (hlinking.named.normalizeTypes d).tables
  have hwanted := (Registry.isAttached_schemaBy h.built).normalizeTypes d
  refine ⟨h.syncStatements_of_syncDdl hddl, ?_⟩
  rw [TableDiff.ddl_of_allStatements_eq_ok hddl]
  constructor
  · intro hfresh
    refine or_iff_not_imp_left.2 fun hsafe entry hentry => ?_
    rw [← Bool.not_eq_true]
    exact fun halter => not_createsFresh_of_isAlter hnamed hwanted hlive.tables hattached
      (by simpa using hsafe) hentry halter hfresh
  · exact createsFresh_of_mayDrop hnamed hwanted (hlinking.toIsLinked.normalizeTypes d) hlive hattached

/-- A note gets a column, and its index becomes one that keeps titles unique. -/
def note : Entity where
  name := "Note"
  fields := Assoc.ofPairs
    [("id", { type := .integer }), ("title", { type := .text }), ("text", { type := .text })]
  indexes := [{ name? := some "by_title", fields := ["title"], unique := true }]

/-- A table of notes that have only titles. -/
def liveNotes : Schema :=
  let id : Column := { name := "id", type := .integer .regular, isPrimaryKey := true }
  Schema.addTable {}
    (((Table.addColumn { name := "Note" } id).addColumn { name := "title", type := .of .text }).addIndex
      { name := "by_title", columns := ["title"] })

/-- The index is dropped and created again where that is allowed. -/
theorem createsFresh_iff_notes :
    let m := against (Registry.ofList [note]) liveNotes .postgres
    ∃ desired statements, m.Syncs m.querier () .postgres desired liveNotes ∧ liveNotes.IsNamed ∧
      liveNotes.IsAttached ∧
      m.syncDdl .postgres { safe := false, drop := true } desired liveNotes = .ok statements ∧
      (m.syncStatements m.querier { safe := false, drop := true } ()).1 =
        .ok (statements.map (·.render .postgres)) ∧
      Ddl.CreatesFresh .postgres liveNotes statements ∧ statements ≠ [] := by
  intro m
  obtain ⟨desired, hbuilt⟩ : ∃ desired, m.registry.schema = .ok desired := ⟨_, rfl⟩
  have hsyncs : m.Syncs m.querier () .postgres desired liveNotes := syncs_against hbuilt
  have hlive : liveNotes.IsNamed := by decide +kernel
  have hattached : liveNotes.IsAttached := by decide +kernel
  have hddl := m.syncDdl_eq (d := .postgres) rfl { safe := false, drop := true } desired liveNotes
  obtain ⟨htexts, hfresh⟩ := createsFresh_iff hsyncs hlive hattached hddl
  refine ⟨desired, _, hsyncs, hlive, hattached, hddl, htexts, hfresh.2 (.inl rfl), ?_⟩
  cases hbuilt
  decide +kernel

/-- Where nothing may be dropped the index is created beside the one that exists. -/
theorem creates_existing_index :
    let m := against (Registry.ofList [note]) liveNotes .postgres
    ∃ desired statements, m.Syncs m.querier () .postgres desired liveNotes ∧
      m.syncDdl .postgres {} desired liveNotes = .ok statements ∧
      (m.syncStatements m.querier {} ()).1 = .ok (statements.map (·.render .postgres)) ∧
      ¬Ddl.CreatesFresh .postgres liveNotes statements := by
  intro m
  obtain ⟨desired, hbuilt⟩ : ∃ desired, m.registry.schema = .ok desired := ⟨_, rfl⟩
  have hsyncs : m.Syncs m.querier () .postgres desired liveNotes := syncs_against hbuilt
  have hddl := m.syncDdl_eq (d := .postgres) rfl {} desired liveNotes
  refine ⟨desired, _, hsyncs, hddl, hsyncs.syncStatements_of_syncDdl hddl, ?_⟩
  cases hbuilt
  decide +kernel

end Migrator

end EntitySql
