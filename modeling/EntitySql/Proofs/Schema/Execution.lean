import EntitySql.Proofs.Schema.Changes
import EntitySql.Proofs.Schema.SelfComparison
import EntitySql.Proofs.Schema.Statements
/-!
# Statements find what they need

Carried out in order on the live schema, each statement of the differences finds the tables and columns that
it names, and none drops a column that is in use: that is what `Ddl.ExecutesSafely` says. For the statements
between two schemas it comes down to what has been created and dropped by then: all that is created is
desired, desired columns stay, and no desired object uses a column that is dropped.
-/

namespace EntitySql

/-- Whether the tables and columns at both ends of the foreign key exist. -/
def Relationship.Resolves (objects : List SchemaObject) (key : Relationship) : Prop :=
  ∀ e ∈ [key.referencing, key.referenced],
    .table e.table ∈ objects ∧ ∀ column ∈ e.columns, .column e.table column ∈ objects

instance (objects : List SchemaObject) (key : Relationship) : Decidable (key.Resolves objects) :=
  inferInstanceAs (Decidable (∀ e ∈ [key.referencing, key.referenced],
    .table e.table ∈ objects ∧ ∀ column ∈ e.columns, .column e.table column ∈ objects))

/-- Whether an index or a foreign key uses the column. -/
def SchemaObject.uses (table column : String) : SchemaObject → Bool
  | .index i => i.table == table && i.columns.contains column
  | .foreignKey key => [key.referencing, key.referenced].any fun e =>
      e.table == table && e.columns.contains column
  | _ => false

namespace Ddl

/-- Whether a statement finds what it refers to and drops no column that is in use. -/
def Fits (d : Dialect) (objects : List SchemaObject) : Ddl → Prop
  | createTable definition _ =>
    ∀ key ∈ definition.foreignKeys, key.Resolves (objects ++ definition.table.objects)
  | addForeignKey key => d.alterForeignKeys = true → key.Resolves objects
  | createIndex i _ => ∀ column ∈ i.columns, .column i.table column ∈ objects
  | dropColumn table column => ∀ o ∈ objects, o.uses table column = false
  | _ => True

instance (d : Dialect) (objects : List SchemaObject) : DecidablePred (Fits d objects)
  | createTable definition _ => inferInstanceAs (Decidable (∀ key ∈ definition.foreignKeys,
      key.Resolves (objects ++ definition.table.objects)))
  | addForeignKey key => inferInstanceAs (Decidable (d.alterForeignKeys = true → key.Resolves objects))
  | createIndex i _ => inferInstanceAs (Decidable (∀ column ∈ i.columns, .column i.table column ∈ objects))
  | dropColumn table column => inferInstanceAs (Decidable (∀ o ∈ objects, o.uses table column = false))
  | dropTable _ _ _ | renameTable _ _ | addColumn _ _ | renameColumn _ _ _ | setType _ _ _
  | setNullable _ _ _ | setDefault _ _ _ | addUnique _ _ | dropUnique _ _ | modifyColumn _ _
  | dropIndex _ | dropForeignKey _ | lostDataRemark _ _ | lostIndexRemark _ => isTrue trivial

/-- Whether every statement fits where it is carried out, behind those in front of it. -/
def ExecutesSafely (d : Dialect) (objects : List SchemaObject) (statements : List Ddl) : Prop :=
  EachAfter (fun before statement => statement.Fits d (run d objects before)) statements

instance (d : Dialect) (objects : List SchemaObject) (statements : List Ddl) :
    Decidable (ExecutesSafely d objects statements) :=
  inferInstanceAs (Decidable (EachAfter _ statements))

theorem IsIdle.fits {d : Dialect} {s : Ddl} (h : s.IsIdle d) (objects : List SchemaObject) :
    s.Fits d objects := by
  cases s with
  | createTable definition _ => cases h.created
  | createIndex i _ => cases h.created
  | dropColumn table column => simpa [Ddl.drops] using h.drops (.column table column)
  | addForeignKey key =>
    intro hd
    simpa [Ddl.created, hd] using h.created
  | _ => trivial

end Ddl

namespace SchemaDiff

/-- The statements that create a table. -/
def creating (diff : SchemaDiff) (t : Table) : List Ddl := (diff.definitionOf t).statements false

/-- The statements that change a table. -/
def changing (d : Dialect) (diff : SchemaDiff) (table : String) : List Ddl :=
  (diff.changesOf table).ddl d table

/-- The statements of differences of two schemas. -/
def ddl (d : Dialect) (diff : SchemaDiff) : List Ddl :=
  diff.tablesToCreate.flatMap diff.creating ++ diff.changedTables.flatMap (diff.changing d)

theorem flatMap_ddl_tableDiffs (d : Dialect) (diff : SchemaDiff) :
    diff.tableDiffs.flatMap (TableDiff.ddl d) = diff.ddl d := by
  rw [tableDiffs, List.flatMap_append, List.flatMap_map, List.flatMap_map]
  rfl

theorem allStatements_tableDiffs {d : Dialect} (hd : d.alterForeignKeys = true) (diff : SchemaDiff) :
    TableDiff.allStatements d diff.tableDiffs = .ok (diff.ddl d) := by
  rw [TableDiff.allStatements_eq hd (by simp [tableDiffs]), flatMap_ddl_tableDiffs]

section Statements

variable {d : Dialect} {diff : SchemaDiff} {table : String}

/-- What a table is created with is created by the statements of those to create. -/
theorem exists_created_of_mem {tables : List Table} {t : Table} (ht : t ∈ tables) {o : SchemaObject}
    (ho : o ∈ t.objects) : ∃ s ∈ tables.flatMap diff.creating, o ∈ s.created d :=
  ⟨_, List.mem_flatMap.2 ⟨t, ht, .head _⟩, List.mem_append_left _ ho⟩

theorem addColumn_mem_changing {c : Column} (h : c ∈ (diff.changesOf table).addColumns) :
    .addColumn table c ∈ diff.changing d table := by
  simp [changing, TableChanges.ddl, h]

theorem dropColumn_mem_changing {c : Column} (h : c ∈ (diff.changesOf table).dropColumns) :
    .dropColumn table c.name ∈ diff.changing d table := by
  simp only [changing, TableChanges.ddl, List.mem_append, List.mem_map]
  exact .inl (.inl (.inr ⟨c, h, rfl⟩))

theorem dropForeignKey_mem_changing {key : Relationship}
    (h : key ∈ (diff.changesOf table).dropForeignKeys) :
    .dropForeignKey key ∈ diff.changing d table := by
  simp [changing, TableChanges.ddl, h]

end Statements

end SchemaDiff

/-- Foreign keys that do not differ refer to the same columns of the same table. -/
theorem Relationship.referenced_of_changes_eq_nil {old new : Relationship}
    (h : Relationship.changes id old new = []) : new.referenced = old.referenced := by
  have hends : endsMatch id old new = true := by
    cases hmatch : endsMatch id old new with
    | true => rfl
    | false => simp [changes, changedAttribute, hmatch] at h
  simp only [endsMatch, Bool.and_eq_true, beq_iff_eq, id] at hends
  obtain ⟨⟨htable, hcolumns⟩, _⟩ := hends
  cases hnew : new.referenced
  cases hold : old.referenced
  simp_all

namespace Schema

/-- Whether everything stands under its own name and all columns of indexes and foreign keys are those of
their tables. -/
structure IsIntact (s : Schema) : Prop extends s.IsNamed where
  attached : s.IsAttached
  indexed : ∀ t ∈ s.tables.values, ∀ i ∈ t.indexes, ∀ column ∈ i.columns, column ∈ t.columns.keys
  joined : ∀ r ∈ s.relationships.values, ∀ e ∈ [r.referencing, r.referenced],
    ∃ t ∈ s.tables.values, t.name = e.table ∧ ∀ column ∈ e.columns, column ∈ t.columns.keys

instance (s : Schema) : Decidable s.IsIntact :=
  decidable_of_iff
    (s.IsNamed ∧ s.IsAttached ∧
      (∀ t ∈ s.tables.values, ∀ i ∈ t.indexes, ∀ column ∈ i.columns, column ∈ t.columns.keys) ∧
      ∀ r ∈ s.relationships.values, ∀ e ∈ [r.referencing, r.referenced],
        ∃ t ∈ s.tables.values, t.name = e.table ∧ ∀ column ∈ e.columns, column ∈ t.columns.keys)
    ⟨fun ⟨named, attached, indexed, joined⟩ => { toIsNamed := named, attached, indexed, joined },
      fun h => ⟨h.toIsNamed, h.attached, h.indexed, h.joined⟩⟩

/-- The columns that a table of both schemas has to lose. -/
def lostColumns (desired live : Schema) (table : String) : List String :=
  match desired.table? table, live.table? table with
  | some new, some old => old.columns.keys.filter fun column => !new.columns.contains column
  | _, _ => []

variable {d : Dialect} {desired live : Schema}

theorem mem_lostColumns_iff {table column : String} :
    column ∈ lostColumns desired live table ↔ ∃ new old, desired.table? table = some new ∧
      live.table? table = some old ∧ column ∈ old.columns.keys ∧ column ∉ new.columns.keys := by
  unfold lostColumns
  split
  · simp_all
  · rename_i hnone
    refine iff_of_false (List.not_mem_nil) ?_
    rintro ⟨new, old, hnew, hold, _⟩
    exact hnone new old hnew hold

section Named

variable (hdesired : desired.IsNamed) (hlive : live.IsNamed)

include hdesired

/-- The tables that are matched are those of both schemas. -/
theorem mem_matched_default_iff {new old : Table} :
    (new, old) ∈ matchedTables desired live {} ↔
      desired.table? new.name = some new ∧ live.table? new.name = some old := by
  rw [mem_matched_iff rfl hdesired.tables]
  exact and_congr_right fun _ => and_iff_right rfl

include hlive

/-- The columns to drop are those that a table loses. -/
theorem mem_lostColumns_iff_dropColumns {table column : String} :
    column ∈ lostColumns desired live table ↔
      ∃ c ∈ ((desired.diff live {}).changesOf table).dropColumns, c.name = column := by
  have hkeys : ∀ {s : Schema} {name column : String} {t : Table}, s.IsNamed → s.table? name = some t →
      (column ∈ t.columns.keys ↔ ∃ c ∈ t.columns.values, c.name = column) := fun hs ht =>
    (hs.columns _ (Assoc.mem_values_of_get? ht)).mem_keys_iff
  simp only [mem_lostColumns_iff, mem_dropColumns_iff (o := {}) rfl, mem_matched_default_iff hdesired]
  constructor
  · rintro ⟨new, old, hnew, hold, hmem, hgone⟩
    obtain ⟨c, hc, rfl⟩ := (hkeys hlive hold).1 hmem
    have hname := hdesired.tables _ _ hnew
    refine ⟨c, ⟨new, old, ⟨hname ▸ hnew, hname ▸ hold⟩, hname, hc, fun other hother hsame => ?_⟩, rfl⟩
    exact hgone ((hkeys hdesired hnew).2 ⟨other, hother, hsame⟩)
  · rintro ⟨c, ⟨new, old, ⟨hnew, hold⟩, rfl, hc, hgone⟩, rfl⟩
    refine ⟨new, old, hnew, hold, (hkeys hlive hold).2 ⟨c, hc, rfl⟩, fun hmem => ?_⟩
    obtain ⟨other, hother, hsame⟩ := (hkeys hdesired hnew).1 hmem
    exact hgone other hother hsame

end Named

section Intact

variable (hdesired : desired.IsIntact) (hlive : live.IsIntact)

/-! ## What the statements create and drop -/

include hdesired

theorem mem_tablesToCreate_default_iff {t : Table} :
    t ∈ (desired.diff live {}).tablesToCreate ↔ t ∈ desired.tables.values ∧ t.name ∉ live.tables.keys := by
  rw [mem_tablesToCreate, mem_comparedTables hdesired.tables, mem_tables_iff hdesired.tables,
    DiffOptions.findTable?_of_exact rfl]
  exact and_congr (and_iff_left rfl) Assoc.get?_eq_none_iff

/-- All that is created is desired. -/
theorem mem_objects_of_mem_created {s : Ddl} (hs : s ∈ (desired.diff live {}).ddl d)
    {o : SchemaObject} (ho : o ∈ s.created d) : o ∈ desired.objects := by
  rcases List.mem_append.1 hs with hs | hs
  · obtain ⟨t, ht, hs⟩ := List.mem_flatMap.1 hs
    have hmem := ((mem_tablesToCreate_default_iff hdesired).1 ht).1
    rcases TableDefinition.mem_created_statements_iff.1 ⟨s, hs, ho⟩ with
      hobject | ⟨key, hkey, rfl⟩ | ⟨i, hi, rfl⟩
    · rcases List.mem_cons.1 hobject with rfl | hcolumn
      · exact table_mem_objects.2 ⟨t, hmem, rfl⟩
      · obtain ⟨c, hc, rfl⟩ := List.mem_map.1 hcolumn
        exact column_mem_objects.2 ⟨t, hmem, rfl, c, hc, rfl⟩
    · exact foreignKey_mem_objects.2 ((mem_foreignKeys_definitionOf_iff rfl rfl).1 hkey).1
    · exact index_mem_objects.2 ⟨t, hmem, hi⟩
  · obtain ⟨table, _, hs⟩ := List.mem_flatMap.1 hs
    rcases TableChanges.mem_created_ddl_iff.1 ⟨s, hs, ho⟩ with
      ⟨c, hc, rfl⟩ | ⟨i, hi, rfl⟩ | ⟨_, key, hkey, rfl⟩
    · obtain ⟨new, old, hmatch, rfl, hc, _⟩ := (mem_addColumns_iff rfl).1 hc
      have hget := ((mem_matched_default_iff hdesired.toIsNamed).1 hmatch).1
      exact column_mem_objects.2 ⟨new, Assoc.mem_values_of_get? hget, rfl, c, hc, rfl⟩
    · obtain ⟨new, old, hmatch, rfl, change, hrequires, hnew⟩ := (mem_addIndexes_iff rfl rfl).1 hi
      have hget := ((mem_matched_default_iff hdesired.toIsNamed).1 hmatch).1
      exact index_mem_objects.2
        ⟨new, Assoc.mem_values_of_get? hget, (hrequires.desired_of_new? hnew).1⟩
    · obtain ⟨⟨r, hr, hadded⟩, _⟩ := SchemaDiff.mem_addForeignKeys_changesOf.1 hkey
      have hnew := (SchemaDiff.addedKey?_eq_some_iff.1 hadded).1
      exact foreignKey_mem_objects.2 ((requires_of_mem rfl hr).desired_of_new? hnew).1

omit hdesired in
theorem isPlain_of_mem_ddl : ∀ s ∈ (desired.diff live {}).ddl d, s.isPlain = true := by
  intro s hs
  rcases List.mem_append.1 hs with hs | hs
  · obtain ⟨_, _, hs⟩ := List.mem_flatMap.1 hs
    exact TableDefinition.isPlain_of_mem_statements s hs
  · obtain ⟨_, _, hs⟩ := List.mem_flatMap.1 hs
    exact TableChanges.isPlain_of_mem_ddl s hs

omit hdesired in
/-- What is dropped is dropped by the changes of a table. -/
theorem drops_of_mem_ddl {name : ObjectName} {s : Ddl} (hs : s ∈ (desired.diff live {}).ddl d)
    (hdrops : s.drops d name = true) :
    ∃ table ∈ (desired.diff live {}).changedTables, s ∈ (desired.diff live {}).changing d table := by
  rcases List.mem_append.1 hs with hs | hs
  · obtain ⟨_, _, hs⟩ := List.mem_flatMap.1 hs
    rw [TableDefinition.drops_of_mem_statements s hs] at hdrops
    cases hdrops
  · exact List.mem_flatMap.1 hs

/-- Tables and desired columns stay. -/
theorem not_drops_of_mem_objects {s : Ddl} (hs : s ∈ (desired.diff live {}).ddl d) :
    (∀ name, s.drops d (.table name) = false) ∧ ∀ table column,
      .column table column ∈ desired.objects → s.drops d (.column table column) = false := by
  simp only [← Bool.not_eq_true]
  constructor
  · intro name hdrops
    obtain ⟨table, _, hs⟩ := drops_of_mem_ddl hs hdrops
    rcases TableChanges.drops_ddl_iff.1 ⟨s, hs, hdrops⟩ with ⟨_, _, _, h⟩ | ⟨_, _, h⟩ | ⟨_, _, h⟩ <;>
      cases h
  · intro table column hmem hdrops
    obtain ⟨changed, _, hs⟩ := drops_of_mem_ddl hs hdrops
    rcases TableChanges.drops_ddl_iff.1 ⟨s, hs, hdrops⟩ with ⟨_, _, _, h⟩ | ⟨_, _, h⟩ | ⟨c, hc, h⟩
    · cases h
    · cases h
    · cases h
      obtain ⟨new, old, hmatch, rfl, _, hgone⟩ := (mem_dropColumns_iff rfl).1 hc
      obtain ⟨t, ht, hname, other, hother, hsame⟩ := column_mem_objects.1 hmem
      have hget := ((mem_matched_default_iff hdesired.toIsNamed).1 hmatch).1
      rw [← hname, (mem_tables_iff hdesired.tables).1 ht] at hget
      cases hget
      exact hgone other hother hsame

/-- Tables and columns that are desired exist once they are created. -/
theorem mem_run_of_desired {before : List Ddl} (hsub : ∀ s ∈ before, s ∈ (desired.diff live {}).ddl d)
    {o : SchemaObject} (ho : Ddl.Supplies d live.objects before o)
    (hdesired' : (∃ name, o = .table name) ∨
      ∃ table column, o = .column table column ∧ o ∈ desired.objects) :
    o ∈ Ddl.run d live.objects before := by
  refine Ddl.mem_run_of_kept (fun s hs => isPlain_of_mem_ddl s (hsub s hs)) ho fun s hs => ?_
  obtain ⟨htables, hcolumns⟩ := not_drops_of_mem_objects hdesired (hsub s hs)
  rcases hdesired' with ⟨name, rfl⟩ | ⟨table, column, rfl, hmem⟩
  · exact htables name
  · exact hcolumns table column hmem

/-- Nothing that is desired uses a column that is lost. -/
theorem uses_of_mem_objects {table column : String} (hlost : column ∈ lostColumns desired live table)
    {o : SchemaObject} (ho : o ∈ desired.objects) : o.uses table column = false := by
  obtain ⟨new, old, hnew, _, _, hgone⟩ := mem_lostColumns_iff.1 hlost
  have hunique : ∀ t ∈ desired.tables.values, t.name = table → t = new := fun t ht hname => by
    rw [mem_tables_iff hdesired.tables, hname, hnew] at ht
    exact (Option.some.inj ht).symm
  cases o with
  | table _ | column _ _ => rfl
  | index i =>
    obtain ⟨t, ht, hi⟩ := index_mem_objects.1 ho
    rw [← Bool.not_eq_true]
    simp only [SchemaObject.uses, Bool.and_eq_true, beq_iff_eq, List.contains_iff_mem]
    rintro ⟨htable, hcolumn⟩
    obtain rfl := hunique t ht ((hdesired.attached t ht i hi).symm.trans htable)
    exact hgone (hdesired.indexed t ht i hi column hcolumn)
  | foreignKey key =>
    rw [← Bool.not_eq_true]
    simp only [SchemaObject.uses, List.any_eq_true, Bool.and_eq_true, beq_iff_eq,
      List.contains_iff_mem]
    rintro ⟨e, he, htable, hcolumn⟩
    obtain ⟨t, ht, hname, hcolumns⟩ := hdesired.joined key (foreignKey_mem_objects.1 ho) e he
    obtain rfl := hunique t ht (hname.trans htable)
    exact hgone (hcolumns column hcolumn)

/-- A column may go as soon as all of the live objects that use it are dropped. -/
theorem fits_dropColumn_iff {before : List Ddl}
    (hsub : ∀ s ∈ before, s ∈ (desired.diff live {}).ddl d) {table column : String}
    (hlost : column ∈ lostColumns desired live table) :
    (Ddl.dropColumn table column).Fits d (Ddl.run d live.objects before) ↔
      ∀ o ∈ live.objects, o.uses table column = true → ∃ s ∈ before, s.drops d o.name = true := by
  have hplain : ∀ s ∈ before, s.isPlain = true := fun s hs => isPlain_of_mem_ddl s (hsub s hs)
  constructor
  · intro h o ho huses
    by_contra hkept
    simp only [not_exists, not_and, Bool.not_eq_true] at hkept
    have hmem := Ddl.mem_run_of_kept hplain (.inl ho) hkept
    exact Bool.false_ne_true ((h o hmem).symm.trans huses)
  · intro h o ho
    rw [← Bool.not_eq_true]
    intro huses
    rcases Ddl.mem_or_created_of_mem_run hplain ho with ⟨ho, hkept⟩ | ⟨s, hs, ho⟩
    · obtain ⟨s, hs, hdrops⟩ := h o ho huses
      exact Bool.false_ne_true ((hkept s hs).symm.trans hdrops)
    · have hdesired' := mem_objects_of_mem_created hdesired (hsub s hs) ho
      exact Bool.false_ne_true ((uses_of_mem_objects hdesired hlost hdesired').symm.trans huses)

/-! ## What the statements find -/

/-- The statement that creates an index fits where the columns of its table are supplied. -/
theorem fits_createIndex {before : List Ddl} (hsub : ∀ s ∈ before, s ∈ (desired.diff live {}).ddl d)
    {t : Table} (ht : t ∈ desired.tables.values) {i : Index} (hi : i ∈ t.indexes) {guarded : Bool}
    (hobjects : ∀ o ∈ t.objects, Ddl.Supplies d live.objects before o) :
    (Ddl.createIndex i guarded).Fits d (Ddl.run d live.objects before) := by
  intro column hcolumn
  have hmem := hdesired.indexed t ht i hi column hcolumn
  rw [hdesired.attached t ht i hi]
  refine mem_run_of_desired hdesired hsub (hobjects _ ?_) (.inr ⟨_, _, rfl, ?_⟩)
  · exact (Table.column_mem_objects (hdesired.columns t ht)).2 ⟨rfl, hmem⟩
  · exact column_mem_objects.2 ⟨t, ht, rfl, (hdesired.columns t ht).mem_keys_iff.1 hmem⟩

/-- A desired foreign key resolves where what is desired at its ends is supplied. -/
theorem resolves_of_desired {before : List Ddl}
    (hsub : ∀ s ∈ before, s ∈ (desired.diff live {}).ddl d) {key : Relationship}
    (hkey : key ∈ desired.relationships.values) {own : List SchemaObject}
    (hends : ∀ e ∈ [key.referencing, key.referenced], ∀ t ∈ desired.tables.values, t.name = e.table →
      (∀ o ∈ t.objects, o ∈ own) ∨ Ddl.Supplies d live.objects before (.table t.name) ∧
        ∀ column ∈ e.columns, column ∈ t.columns.keys →
          Ddl.Supplies d live.objects before (.column t.name column)) :
    key.Resolves (Ddl.run d live.objects before ++ own) := by
  intro e he
  obtain ⟨t, ht, hname, hcolumns⟩ := hdesired.joined key hkey e he
  rw [← hname]
  rcases hends e he t ht hname with hown | ⟨htable, hsupplied⟩
  · refine ⟨List.mem_append_right _ (hown _ (.head _)), fun column hcolumn => ?_⟩
    refine List.mem_append_right _ (hown _ ?_)
    exact (Table.column_mem_objects (hdesired.columns t ht)).2 ⟨rfl, hcolumns column hcolumn⟩
  · refine ⟨List.mem_append_left _ ?_, fun column hcolumn => List.mem_append_left _ ?_⟩
    · exact mem_run_of_desired hdesired hsub htable (.inl ⟨_, rfl⟩)
    · have hmem := hcolumns column hcolumn
      refine mem_run_of_desired hdesired hsub (hsupplied column hcolumn hmem) (.inr ⟨_, _, rfl, ?_⟩)
      exact column_mem_objects.2 ⟨t, ht, rfl, (hdesired.columns t ht).mem_keys_iff.1 hmem⟩

end Intact

end Schema

end EntitySql
