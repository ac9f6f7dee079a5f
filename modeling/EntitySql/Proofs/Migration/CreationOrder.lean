import EntitySql.Proofs.Migration.SyncStatements
import EntitySql.Proofs.Schema.Changes
import EntitySql.Proofs.Schema.FromRegistry
/-!
# Foreign keys to tables that exist

Created tables declare their foreign keys in place, so each has to stand behind the tables that it refers to.
In an empty database, and where all tables are created again, that is so exactly if no chain of foreign keys
leads back to where it started (`Migrator.refersBack_iff_isAcyclic`).
-/

namespace EntitySql

namespace Ddl

/-- The tables that are named behind `REFERENCES`. -/
def referredTables (d : Dialect) : Ddl → List String
  | createTable definition _ => definition.foreignKeys.map (·.referenced.table)
  | addForeignKey key => if d.alterForeignKeys then [key.referenced.table] else []
  | _ => []

/-- The table that a statement creates. -/
def createdTable? : Ddl → Option String
  | createTable definition _ => some definition.table.name
  | _ => none

/-- Whether every reference leads to a table that the statement itself or one in front of it creates. -/
def RefersBack (d : Dialect) (statements : List Ddl) : Prop :=
  EachAfter
    (fun before statement => ∀ table ∈ statement.referredTables d,
      ∃ creating ∈ before ++ [statement], creating.createdTable? = some table)
    statements

instance (d : Dialect) (statements : List Ddl) : Decidable (RefersBack d statements) :=
  inferInstanceAs (Decidable (EachAfter _ statements))

/-- The tables that are created by the statements of definitions. -/
theorem exists_createdTable?_iff {tables : List Table} {define : Table → TableDefinition}
    (hdefine : ∀ t, (define t).table = t) {table : String} :
    (∃ creating ∈ tables.flatMap fun t => (define t).statements false,
        creating.createdTable? = some table) ↔ table ∈ tables.map (·.name) := by
  simp only [List.mem_flatMap, List.mem_map]
  constructor
  · rintro ⟨creating, ⟨t, ht, hcreating⟩, hname⟩
    rcases List.mem_cons.1 hcreating with rfl | hindex
    · exact ⟨t, ht, hdefine t ▸ Option.some.inj hname⟩
    · obtain ⟨_, _, rfl⟩ := List.mem_map.1 hindex
      cases hname
  · rintro ⟨t, ht, rfl⟩
    exact ⟨_, ⟨t, ht, .head _⟩, congrArg some (congrArg Table.name (hdefine t))⟩

/-- Statements that drop tables change nothing about the references. -/
theorem refersBack_drops_append_iff {d : Dialect} {tables : List Table} {statements : List Ddl} :
    RefersBack d (tables.map (fun t => .dropTable t.name true true) ++ statements) ↔
      RefersBack d statements := by
  rw [RefersBack, EachAfter.append_iff, EachAfter.map_iff]
  refine (and_iff_right (.of_forall fun _ _ _ => nofun)).trans (EachAfter.congr fun before s _ => ?_)
  refine forall₂_congr fun table _ => ?_
  have hnone : ¬∃ creating ∈ tables.map (fun t => dropTable t.name true true),
      creating.createdTable? = some table := by simp [createdTable?]
  simp only [List.append_assoc, List.mem_append (s := tables.map _), or_and_right, exists_or, hnone,
    false_or]

/-- Tables that are created with all their foreign keys refer back exactly if they stand in order. -/
theorem refersBack_definitions_iff {d : Dialect} {s : Schema} {tables : List Table}
    {define : Table → TableDefinition} (hdefine : ∀ t, (define t).table = t)
    (hkeys : ∀ t ∈ tables, ∀ key, key ∈ (define t).foreignKeys ↔
      key ∈ s.relationships.values ∧ key.referencing.table = t.name) :
    RefersBack d (tables.flatMap fun t => (define t).statements false) ↔ s.IsOrdered tables := by
  rw [RefersBack, EachAfter.flatMap_iff]
  refine EachAfter.congr fun before t ht => ?_
  have hknown : ∀ table, (∃ creating ∈ (before.flatMap fun t => (define t).statements false) ++
      [.createTable (define t) false], creating.createdTable? = some table) ↔
        table ∈ (before ++ [t]).map (·.name) := fun table => by
    simp only [List.mem_append, List.mem_singleton, or_and_right, exists_or, exists_eq_left,
      exists_createdTable?_iff hdefine, List.map_append, List.map_cons, List.map_nil]
    rw [createdTable?, hdefine, Option.some.injEq, eq_comm]
  rw [TableDefinition.statements, EachAfter.cons_iff]
  simp only [List.append_nil, hknown, referredTables, List.forall_mem_map, hkeys t ht, and_imp]
  -- The indexes of the table refer to no table.
  exact and_iff_left (EachAfter.map_iff.2 (.of_forall fun _ _ _ _ hrefers => by cases hrefers))

end Ddl

namespace Migrator

variable {σ : Type} {m : Migrator σ} {q : Querier σ} {s : σ} {d : Dialect} {desired : Schema}

theorem excludes_diffOptions {name : String} :
    m.diffOptions.excludes name = false ↔ name ∉ m.excludedTables := by
  have hfold : m.diffOptions.fold = id := DiffOptions.fold_of_exact rfl
  rw [DiffOptions.excludes, hfold, List.any_eq_false]
  simp only [diffOptions, id, beq_iff_eq]
  exact ⟨fun h hmem => h name hmem rfl, fun h other hother hname => h (hname ▸ hother)⟩

/-- In an empty database a synchronization creates all tables that count. -/
theorem syncDdl_creation (hnamed : desired.IsNamed) (hlinked : desired.IsLinked) (options : SyncOptions) :
    m.syncDdl d options desired {} = .ok ((desired.normalizeTypes d).creation m.diffOptions) := by
  have hdiffs : m.allowedDiffs options (desired.normalizeTypes d) {} =
      ((desired.normalizeTypes d).comparedTables m.diffOptions).map fun t =>
        .create t.name (some ((desired.normalizeTypes d).definition m.diffOptions t)) := by
    rw [allowedDiffs, Schema.tableDiffs_diff_empty rfl (hnamed.normalizeTypes d).tables
      (hlinked.normalizeTypes d)]
    split
    · rfl
    · exact List.map_map
  rw [syncDdl, hdiffs, TableDiff.allStatements, List.mapM_map]
  exact flatten_mapM_of_forall fun _ _ => rfl

/-- The tables are created in the order of their references. -/
theorem refersBack_creation_iff (hnamed : desired.IsNamed) (hlinked : desired.IsLinked)
    (hexcluded : ∀ name ∈ desired.tables.keys, name ∉ m.excludedTables) :
    Ddl.RefersBack d ((desired.normalizeTypes d).creation m.diffOptions) ↔ desired.IsAcyclic := by
  let stored := desired.normalizeTypes d
  have hstored : stored.IsNamed := hnamed.normalizeTypes d
  have hlinked : stored.IsLinked := hlinked.normalizeTypes d
  have hcounts : ∀ name ∈ stored.tables.keys, m.diffOptions.excludes name = false :=
    fun name hname => excludes_diffOptions.2 (hexcluded name (by simpa [stored] using hname))
  have hall : stored.comparedTables m.diffOptions = stored.sortedTables := by
    refine List.filter_eq_self.2 fun t ht => ?_
    rw [hcounts _ (hstored.tables.mem_keys_iff.2
      ⟨t, (stored.sortedTables_perm hstored.tables).mem_iff.1 ht, rfl⟩)]
    rfl
  have hkeys : ∀ t key, key ∈ (stored.definition m.diffOptions t).foreignKeys ↔
      key ∈ stored.relationships.values ∧ key.referencing.table = t.name := fun t key => by
    rw [Schema.mem_foreignKeys_definition_iff rfl rfl]
    exact ⟨fun ⟨hkey, _, howner⟩ => ⟨hkey, howner⟩,
      fun ⟨hkey, howner⟩ => ⟨hkey, hcounts _ (hlinked.joined key hkey).1, howner⟩⟩
  rw [Schema.creation, hall, Ddl.refersBack_definitions_iff (fun _ => rfl) fun t _ => hkeys t,
    Schema.isOrdered_sortedTables_iff hstored.tables hstored.relationships hlinked]
  exact Schema.isAcyclic_normalizeTypes d

/-- Where all tables are created again, that happens in the order of their references. -/
theorem refersBack_recreateDdl_iff (hnamed : desired.IsNamed) (hlinked : desired.IsLinked)
    (hexcluded : ∀ name ∈ desired.tables.keys, name ∉ m.excludedTables) :
    Ddl.RefersBack d (m.recreateDdl desired) ↔ desired.IsAcyclic := by
  have htables : ∀ t ∈ desired.sortedTables, t ∈ desired.tables.values := fun t ht =>
    (desired.sortedTables_perm hnamed.tables).mem_iff.1 ht
  have hall : (desired.sortedTables.filter fun t => !m.excludedTables.contains t.name) =
      desired.sortedTables := by
    refine List.filter_eq_self.2 fun t ht => ?_
    have hname : t.name ∈ desired.tables.keys :=
      hnamed.tables.mem_keys_iff.2 ⟨t, htables t ht, rfl⟩
    simpa using hexcluded _ hname
  simp only [recreateDdl, hall]
  rw [Ddl.refersBack_drops_append_iff, Ddl.refersBack_definitions_iff (fun _ => rfl) fun t ht key =>
      Schema.mem_outgoing_iff hnamed.relationships hlinked (htables t ht),
    Schema.isOrdered_sortedTables_iff hnamed.tables hnamed.relationships hlinked]

/-- In an empty database, and where all tables are created again, every reference leads to a table that is
created by then exactly if no chain of foreign keys leads back to where it started. -/
theorem refersBack_iff_isAcyclic (h : m.Syncs q s d desired {})
    (hexcluded : ∀ name ∈ desired.tables.keys, name ∉ m.excludedTables) (options : SyncOptions) :
    ∃ statements, m.syncDdl d options desired {} = .ok statements ∧
      (m.syncStatements q options s).1 = .ok (statements.map (·.render d)) ∧
        (Ddl.RefersBack d statements ↔ desired.IsAcyclic) ∧
      m.recreateStatements d = .ok ((m.recreateDdl desired).map (·.render d)) ∧
        (Ddl.RefersBack d (m.recreateDdl desired) ↔ desired.IsAcyclic) := by
  have hlinking := Registry.linking_schemaBy h.built
  have hddl := syncDdl_creation (m := m) (d := d) hlinking.named hlinking.toIsLinked options
  exact ⟨_, hddl, h.syncStatements_of_syncDdl hddl,
    refersBack_creation_iff hlinking.named hlinking.toIsLinked hexcluded, recreateStatements_eq h.built d,
    refersBack_recreateDdl_iff hlinking.named hlinking.toIsLinked hexcluded⟩

/-- Posts refer to users and to one another, and are declared first. -/
theorem refersBack_iff_isAcyclic_posts :
    let key (entity : String) : Field := { type := .integer, reference? := some { entity } }
    let post : Entity :=
      { name := "Post"
        fields := Assoc.ofPairs
          [("id", { type := .integer }), ("author", key "User"), ("parent", key "Post")] }
    let user : Entity := { name := "User", fields := Assoc.ofPairs [("id", { type := .integer })] }
    let m := against (Registry.ofList [post, user]) {} .postgres ["querykit_migrations"]
    ∃ desired statements, m.Syncs m.querier () .postgres desired {} ∧
      (∀ name ∈ desired.tables.keys, name ∉ m.excludedTables) ∧ desired.IsAcyclic ∧
      (m.syncStatements m.querier {} ()).1 = .ok (statements.map (·.render .postgres)) ∧
      Ddl.RefersBack .postgres statements ∧ Ddl.RefersBack .postgres (m.recreateDdl desired) := by
  intro key post user m
  obtain ⟨desired, hbuilt⟩ : ∃ desired, m.registry.schema = .ok desired := ⟨_, rfl⟩
  have hexcluded : ∀ name ∈ desired.tables.keys, name ∉ m.excludedTables := by
    cases hbuilt
    decide +kernel
  have hback : Ddl.RefersBack .postgres (m.recreateDdl desired) := by
    cases hbuilt
    decide +kernel
  obtain ⟨statements, _, htexts, hsync, _, hrecreate⟩ :=
    refersBack_iff_isAcyclic (syncs_against hbuilt) hexcluded {}
  exact ⟨desired, statements, syncs_against hbuilt, hexcluded, hrecreate.1 hback, htexts,
    hsync.2 (hrecreate.1 hback), hback⟩

/-- Two entities that refer to each other: the first table refers to the second one before it exists. -/
theorem refers_forward_mutual :
    let entity (name other : String) : Entity :=
      { name
        fields := Assoc.ofPairs [("id", { type := .integer }),
          ("other", { type := .integer, reference? := some { entity := other } })] }
    let m := against (Registry.ofList [entity "Egg" "Hen", entity "Hen" "Egg"]) {} .postgres
    ∃ desired statements, m.Syncs m.querier () .postgres desired {} ∧
      m.syncDdl .postgres {} desired {} = .ok statements ∧
      (m.syncStatements m.querier {} ()).1 = .ok (statements.map (·.render .postgres)) ∧
      ¬Ddl.RefersBack .postgres statements ∧ ¬Ddl.RefersBack .postgres (m.recreateDdl desired) := by
  intro entity m
  obtain ⟨desired, hbuilt⟩ : ∃ desired, m.registry.schema = .ok desired := ⟨_, rfl⟩
  have hsyncs : m.Syncs m.querier () .postgres desired {} := syncs_against hbuilt
  have hlinking := Registry.linking_schemaBy hbuilt
  have hexcluded : ∀ name ∈ desired.tables.keys, name ∉ m.excludedTables := fun _ _ =>
    List.not_mem_nil
  have hback : ¬Ddl.RefersBack .postgres (m.recreateDdl desired) := by
    cases hbuilt
    decide +kernel
  have hddl := syncDdl_creation (m := m) (d := .postgres) hlinking.named hlinking.toIsLinked {}
  have hsync := refersBack_creation_iff (m := m) (d := .postgres) hlinking.named hlinking.toIsLinked hexcluded
  have hcyclic :=
    mt (refersBack_recreateDdl_iff hlinking.named hlinking.toIsLinked hexcluded).2 hback
  exact ⟨desired, _, hsyncs, hddl, hsyncs.syncStatements_of_syncDdl hddl,
    mt hsync.1 hcyclic, hback⟩

end Migrator

end EntitySql
