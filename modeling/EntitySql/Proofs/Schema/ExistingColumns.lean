import EntitySql.Proofs.Schema.DeclaredKeys
import EntitySql.Proofs.Schema.Execution
/-!
# Columns that exist

A schema is well formed if the columns of its primary keys, indexes and foreign keys are columns of the tables
that they are said to belong to, which is to say that no statement that creates the schema names a column that
none of them creates (`Schema.isWellFormed_iff_namesCreatedColumns`). That of a registry is well formed exactly
if what its entities declare about indexes and foreign keys resolves to columns of stored fields
(`Registry.isWellFormed_iff`); nothing checks that it does.
-/

namespace EntitySql

/-- Whether all is where it is said to be: columns of primary keys, indexes and foreign keys in their
tables. -/
structure Schema.IsWellFormed (s : Schema) : Prop extends s.IsIntact where
  primaryKey : ∀ t ∈ s.tables.values, ∀ column ∈ t.primaryKey, column ∈ t.columns.keys

instance (s : Schema) : Decidable s.IsWellFormed :=
  decidable_of_iff
    (s.IsIntact ∧ ∀ t ∈ s.tables.values, ∀ column ∈ t.primaryKey, column ∈ t.columns.keys)
    ⟨fun ⟨intact, primaryKey⟩ => { toIsIntact := intact, primaryKey },
      fun h => ⟨h.toIsIntact, h.primaryKey⟩⟩

/-! ## Columns that statements name -/

/-- The columns at both ends of a foreign key. -/
def Relationship.endColumns (key : Relationship) : List SchemaObject :=
  [key.referencing, key.referenced].flatMap fun e => e.columns.map (.column e.table)

namespace Ddl

/-- The columns that a statement names in a primary key, an index or a foreign key. -/
def keyColumns : Ddl → List SchemaObject
  | createTable definition _ =>
    definition.table.primaryKey.map (.column definition.table.name) ++
      definition.foreignKeys.flatMap Relationship.endColumns
  | createIndex i _ => i.columns.map (.column i.table)
  | addForeignKey key => key.endColumns
  | _ => []

/-- Whether each column in a primary key, an index or a foreign key is one that the statements create. -/
def NamesCreatedColumns (d : Dialect) (statements : List Ddl) : Prop :=
  ∀ o ∈ statements.flatMap keyColumns, o ∈ statements.flatMap (created d)

end Ddl

namespace Schema

variable {s : Schema}

/-- A schema is created by a statement for each table and one for each index. -/
theorem mem_creation_iff (hnamed : s.tables.IsNamed Table.name) {statement : Ddl} :
    statement ∈ s.creation {} ↔ ∃ t ∈ s.tables.values,
      statement = .createTable (s.definition {} t) false ∨
        ∃ i ∈ t.indexes, statement = .createIndex i false := by
  have hcompared : ∀ t, t ∈ s.comparedTables {} ↔ t ∈ s.tables.values := fun t => by
    rw [mem_comparedTables hnamed, mem_tables_iff hnamed]
    exact and_iff_left rfl
  simp only [creation, TableDefinition.statements, List.mem_flatMap, hcompared, List.mem_cons,
    List.mem_map, eq_comm (b := statement)]
  rfl

/-- The statements that create a schema create the columns of its tables. -/
theorem column_mem_created_creation_iff (d : Dialect) (hnamed : s.IsNamed) {table column : String} :
    .column table column ∈ (s.creation {}).flatMap (Ddl.created d) ↔
      ∃ t ∈ s.tables.values, t.name = table ∧ column ∈ t.columns.keys := by
  simp only [List.mem_flatMap, mem_creation_iff hnamed.tables]
  constructor
  · rintro ⟨_, ⟨t, ht, rfl | ⟨i, _, rfl⟩⟩, hcreated⟩
    · rcases List.mem_append.1 hcreated with hobject | hkey
      · obtain ⟨rfl, hcolumn⟩ := (Table.column_mem_objects (hnamed.columns t ht)).1 hobject
        exact ⟨t, ht, rfl, hcolumn⟩
      · simp at hkey
    · simp [Ddl.created] at hcreated
  · rintro ⟨t, ht, rfl, hcolumn⟩
    refine ⟨_, ⟨t, ht, .inl rfl⟩, List.mem_append_left _ ?_⟩
    exact (Table.column_mem_objects (hnamed.columns t ht)).2 ⟨rfl, hcolumn⟩

/-- Both ends of a foreign key are at tables. -/
theorem IsLinked.exists_table (h : s.IsLinked) (hnamed : s.IsNamed) {key : Relationship}
    (hkey : key ∈ s.relationships.values) :
    ∀ e ∈ [key.referencing, key.referenced], ∃ t ∈ s.tables.values, t.name = e.table := by
  have hjoined := h.joined key hkey
  simpa [hnamed.tables.mem_keys_iff] using hjoined

/-- A schema is well formed exactly if what creates it names no column that it does not create. -/
theorem isWellFormed_iff_namesCreatedColumns (d : Dialect) (hnamed : s.IsNamed) (hlinked : s.IsLinked)
    (hattached : s.IsAttached) : s.IsWellFormed ↔ Ddl.NamesCreatedColumns d (s.creation {}) := by
  have hkeys {t : Table} {key : Relationship} : key ∈ (s.definition {} t).foreignKeys ↔
      key ∈ s.relationships.values ∧ key.referencing.table = t.name := by
    rw [mem_foreignKeys_definition_iff rfl rfl]
    exact and_congr_right fun _ => and_iff_right rfl
  simp only [Ddl.NamesCreatedColumns, List.forall_mem_flatMap]
  constructor
  · intro h statement hstatement o ho
    obtain ⟨t, ht, rfl | ⟨i, hi, rfl⟩⟩ := (mem_creation_iff hnamed.tables).1 hstatement
    · rcases List.mem_append.1 ho with ho | ho
      · obtain ⟨column, hcolumn, rfl⟩ := List.mem_map.1 ho
        exact (column_mem_created_creation_iff d hnamed).2 ⟨t, ht, rfl, h.primaryKey t ht column hcolumn⟩
      · obtain ⟨key, hkey, ho⟩ := List.mem_flatMap.1 ho
        obtain ⟨e, he, ho⟩ := List.mem_flatMap.1 ho
        obtain ⟨column, hcolumn, rfl⟩ := List.mem_map.1 ho
        obtain ⟨owner, howner, hname, hcolumns⟩ := h.joined key (hkeys.1 hkey).1 e he
        exact (column_mem_created_creation_iff d hnamed).2 ⟨owner, howner, hname, hcolumns column hcolumn⟩
    · obtain ⟨column, hcolumn, rfl⟩ := List.mem_map.1 ho
      exact (column_mem_created_creation_iff d hnamed).2
        ⟨t, ht, (hattached t ht i hi).symm, h.indexed t ht i hi column hcolumn⟩
  · intro h
    -- Tables are told apart by their names, so the column is one of the table that is meant.
    have hcolumn {t : Table} (ht : t ∈ s.tables.values) {statement : Ddl}
        (hstatement : statement ∈ s.creation {}) {column : String}
        (hmem : .column t.name column ∈ statement.keyColumns) : column ∈ t.columns.keys := by
      obtain ⟨other, hother, hname, hcolumn⟩ :=
        (column_mem_created_creation_iff d hnamed).1 (h statement hstatement _ hmem)
      obtain rfl := List.inj_on_of_nodup_map hnamed.tables.nodup hother ht hname
      exact hcolumn
    have hcreate {t : Table} (ht : t ∈ s.tables.values) :=
      (mem_creation_iff hnamed.tables).2 ⟨t, ht, .inl rfl⟩
    refine { toIsNamed := hnamed, attached := hattached, indexed := ?_, joined := ?_, primaryKey := ?_ }
    · intro t ht i hi column hmem
      refine hcolumn ht ((mem_creation_iff hnamed.tables).2 ⟨t, ht, .inr ⟨i, hi, rfl⟩⟩) ?_
      exact hattached t ht i hi ▸ List.mem_map_of_mem hmem
    · intro key hkey e he
      obtain ⟨holder, hholder, hname⟩ := hlinked.exists_table hnamed hkey _ (.head _)
      obtain ⟨t, ht, howner⟩ := hlinked.exists_table hnamed hkey e he
      refine ⟨t, ht, howner, fun column hmem => hcolumn ht (hcreate hholder) ?_⟩
      refine List.mem_append_right _ (List.mem_flatMap.2 ⟨key, hkeys.2 ⟨hkey, hname.symm⟩, ?_⟩)
      exact List.mem_flatMap.2 ⟨e, he, howner ▸ List.mem_map_of_mem hmem⟩
    · intro t ht column hmem
      exact hcolumn ht (hcreate ht) (List.mem_append_left _ (List.mem_map_of_mem hmem))

end Schema

/-! ## Tables of entities -/

/-- A name of the primary key is that of a column. -/
theorem Table.Assembled.mem_columns_of_mem_primaryKey {t : Table} (h : t.Assembled) :
    ∀ column ∈ t.primaryKey, column ∈ t.columns.keys := by
  induction h with
  | empty => exact nofun
  | addColumn c ht ih =>
    intro column hcolumn
    rw [Table.addColumn, Assoc.mem_keys_insert]
    simp only [Table.addColumn] at hcolumn
    split at hcolumn
    · rcases List.mem_append.1 hcolumn with hold | hnew
      · exact .inr (ih column hold)
      · exact .inl (List.mem_singleton.1 hnew)
    · exact .inr (ih column hcolumn)
  | addIndex _ _ ih => exact ih

namespace Member

variable {m : Member} {naming : Naming}

/-- Whether a stored field of the entity has the column. -/
def HasColumn (m : Member) (naming : Naming) (column : String) : Prop :=
  ∃ entry ∈ m.entity.fields.entries, entry.2.isStored = true ∧ m.columnNameBy naming entry.1 = column

instance (column : String) : Decidable (m.HasColumn naming column) :=
  inferInstanceAs (Decidable (∃ entry ∈ m.entity.fields.entries,
    entry.2.isStored = true ∧ m.columnNameBy naming entry.1 = column))

theorem hasColumn_of_isStored {key : String} (h : m.entity.isStored key = true) :
    m.HasColumn naming (m.columnNameBy naming key) := by
  obtain ⟨f, hf, hstored⟩ := (Option.any_eq_true _ _).1 h
  exact ⟨(key, f), Assoc.get?_eq_some_iff.1 hf, hstored, rfl⟩

/-- The columns of the table are those of stored fields. -/
theorem mem_keys_table_iff {column : String} :
    column ∈ (m.table naming).columns.keys ↔ m.HasColumn naming column := by
  obtain ⟨_, htable⟩ := m.table_eq naming
  have hnone : column ∉ (∅ : Assoc Column).keys := List.not_mem_nil
  rw [htable, Assoc.mem_keys_foldl_insert, or_iff_right hnone, columns, List.map_map]
  simp only [List.mem_map, List.mem_filter, and_assoc]
  rfl

theorem tableName_table : (m.table naming).name = m.tableNameBy naming := by
  obtain ⟨_, htable⟩ := m.table_eq naming
  rw [htable]

/-- The indexes of the table name its columns exactly if those that the entity declares do. -/
theorem indexes_table_iff :
    (∀ i ∈ (m.table naming).indexes, ∀ column ∈ i.columns, column ∈ (m.table naming).columns.keys) ↔
      ∀ i ∈ m.entity.indexes, ∀ key ∈ i.fields, m.HasColumn naming (m.columnNameBy naming key) := by
  have hindexes : (m.table naming).indexes =
      (m.indexes naming).map fun i => { i with table := m.tableNameBy naming } := by
    obtain ⟨_, htable⟩ := m.table_eq naming
    rw [htable]
  simp only [hindexes, mem_keys_table_iff, List.forall_mem_map, indexes, List.forall_mem_append,
    declaredIndex]
  -- The index of a field is on the column of that field, which is stored.
  refine and_iff_right fun i hi column hcolumn => ?_
  obtain ⟨entry, hentry, rfl⟩ := List.mem_map.1 hi
  obtain ⟨hentry, hstored⟩ := List.mem_filter.1 hentry
  obtain rfl := List.mem_singleton.1 hcolumn
  exact ⟨entry, hentry, (Bool.and_eq_true_iff.1 hstored).1, rfl⟩

end Member

namespace Registry

variable (r : Registry) (naming : Naming)

/-- The entity whose table stands under the name: the last one with a table of that name. -/
def provider? (table : String) : Option Member :=
  r.members.reverse.find? fun m => m.tableNameBy naming == table

/-- Whether what entities declare about indexes and foreign keys resolves to columns of stored fields: the
indexes of the entities that provide tables, and the foreign keys that come first under their names, at
both ends. -/
structure RefersToColumns : Prop where
  indexes : ∀ table m, r.provider? naming table = some m → ∀ i ∈ m.entity.indexes, ∀ key ∈ i.fields,
    m.HasColumn naming (m.columnNameBy naming key)
  keys : ∀ name key, r.keyNamed? naming name = some key → ∀ e ∈ [key.referencing, key.referenced],
    ∀ owner, r.provider? naming e.table = some owner → ∀ column ∈ e.columns, owner.HasColumn naming column

/-- Whether entities have tables of their own and only speak of stored fields, in their indexes, in their
references and where they hold the key of a relation. -/
structure UsesStoredFields : Prop where
  tables : (r.members.map (·.tableNameBy naming)).Nodup
  indexes : ∀ e ∈ r.entities.values, ∀ i ∈ e.indexes, ∀ key ∈ i.fields, e.isStored key = true
  references : ∀ e ∈ r.entities.values, ∀ entry ∈ e.fields.entries, ∀ reference ∈ entry.2.reference?,
    entry.2.isStored = true ∧ ∀ target ∈ r.entities.get? reference.entity,
      target.isStored (reference.field?.getD target.id) = true
  relations : ∀ m ∈ r.members, ∀ relation ∈ m.entity.relations.values, m.ownsKey relation = true →
    ∀ pair ∈ relation.keyPairs, m.entity.isStored pair.near = true ∧
      ∀ target ∈ r.entities.get? relation.entity, target.isStored pair.far = true

instance : Decidable (r.UsesStoredFields naming) :=
  decidable_of_iff
    ((r.members.map (·.tableNameBy naming)).Nodup ∧
      (∀ e ∈ r.entities.values, ∀ i ∈ e.indexes, ∀ key ∈ i.fields, e.isStored key = true) ∧
      (∀ e ∈ r.entities.values, ∀ entry ∈ e.fields.entries, ∀ reference ∈ entry.2.reference?,
        entry.2.isStored = true ∧ ∀ target ∈ r.entities.get? reference.entity,
          target.isStored (reference.field?.getD target.id) = true) ∧
      ∀ m ∈ r.members, ∀ relation ∈ m.entity.relations.values, m.ownsKey relation = true →
        ∀ pair ∈ relation.keyPairs, m.entity.isStored pair.near = true ∧
          ∀ target ∈ r.entities.get? relation.entity, target.isStored pair.far = true)
    ⟨fun ⟨tables, indexes, references, relations⟩ => { tables, indexes, references, relations },
      fun h => ⟨h.tables, h.indexes, h.references, h.relations⟩⟩

variable {r naming} {s : Schema}

/-- Under each name the schema has the table of the entity that provides it, but for its links. -/
theorem unlinked?_schemaBy (h : r.schemaBy naming = .ok s) (name : String) :
    s.unlinked? name = (r.provider? naming name).map (·.table naming) := by
  refine schemaBy_rounds (P := fun s => s.unlinked? name = (r.provider? naming name).map (·.table naming))
    ?_ (fun _ _ _ _ key _ s _ _ _ hs => (s.unlinked?_addForeignKey key name).trans hs)
    (fun _ _ hs => hs) h
  have htables : (r.members.foldl (fun s m => s.addTable (m.table naming)) ({} : Schema)).tables =
      r.members.foldl (fun a m => a.insert (m.table naming).name (m.table naming)) {} :=
    (List.foldl_hom Schema.tables fun _ _ => rfl).symm
  have hempty : (∅ : Assoc Table).get? name = none := rfl
  have hunlinked : ∀ m : Member, (m.table naming).unlinked = m.table naming := fun m => by
    obtain ⟨_, htable⟩ := m.table_eq naming
    rw [htable]
    rfl
  rw [Schema.unlinked?, Schema.table?, htables, Assoc.get?_foldl_insert, hempty, Option.or_none,
    Option.map_map, provider?]
  simp only [Member.tableName_table]
  exact congrArg (Option.map · _) (funext hunlinked)

theorem mem_of_provider? {table : String} {m : Member} (h : r.provider? naming table = some m) :
    m ∈ r.members ∧ m.tableNameBy naming = table :=
  ⟨List.mem_reverse.1 (List.mem_of_find?_eq_some h), by simpa using List.find?_some h⟩

/-- Each table of the schema is that of the entity that provides it. -/
theorem exists_provider_of_mem_tables (h : r.schemaBy naming = .ok s) {t : Table}
    (ht : t ∈ s.tables.values) :
    ∃ m, r.provider? naming t.name = some m ∧ t.unlinked = m.table naming := by
  have htable := unlinked?_schemaBy h t.name
  rw [Schema.unlinked?, (Schema.mem_tables_iff (linking_schemaBy h).named.tables).1 ht, Option.map_some,
    eq_comm, Option.map_eq_some_iff] at htable
  obtain ⟨m, hm, htable⟩ := htable
  exact ⟨m, hm, htable.symm⟩

/-- Each entity that provides a table has it in the schema. -/
theorem exists_table_of_provider? (h : r.schemaBy naming = .ok s) {name : String} {m : Member}
    (hm : r.provider? naming name = some m) :
    ∃ t ∈ s.tables.values, t.name = name ∧ t.unlinked = m.table naming := by
  have htable := unlinked?_schemaBy h name
  rw [hm, Option.map_some, Schema.unlinked?, Option.map_eq_some_iff] at htable
  obtain ⟨t, ht, htable⟩ := htable
  exact ⟨t, Assoc.mem_values_of_get? ht, (linking_schemaBy h).named.tables name t ht, htable⟩

/-- An entity that shares its table with no other provides it. -/
theorem provider?_eq_some (htables : (r.members.map (·.tableNameBy naming)).Nodup) {m : Member}
    (hm : m ∈ r.members) : r.provider? naming (m.tableNameBy naming) = some m := by
  have hfound : (r.provider? naming (m.tableNameBy naming)).isSome := by
    rw [provider?, List.find?_isSome]
    exact ⟨m, List.mem_reverse.2 hm, beq_self_eq_true _⟩
  obtain ⟨other, hother⟩ := Option.isSome_iff_exists.1 hfound
  obtain ⟨hmember, hname⟩ := mem_of_provider? hother
  rwa [List.inj_on_of_nodup_map htables hmember hm hname] at hother

/-- The columns of stored fields of an entity are columns of the entity that provides its table. -/
theorem UsesStoredFields.hasColumn (h : r.UsesStoredFields naming) {m owner : Member} (hm : m ∈ r.members)
    {keys : List String} (hkeys : ∀ key ∈ keys, m.entity.isStored key = true)
    (howner : r.provider? naming (m.tableNameBy naming) = some owner) :
    ∀ column ∈ keys.map (m.columnNameBy naming), owner.HasColumn naming column := by
  obtain rfl := Option.some.inj ((provider?_eq_some h.tables hm).symm.trans howner)
  exact List.forall_mem_map.2 fun key hkey => Member.hasColumn_of_isStored (hkeys key hkey)

/-- Where entities only speak of stored fields, all that they declare resolves to columns. -/
theorem UsesStoredFields.refersToColumns (h : r.UsesStoredFields naming) : r.RefersToColumns naming := by
  have hentity {m : Member} (hm : m ∈ r.members) := (mem_members_iff.1 hm).2
  have htarget {m target : Member} (hm : m ∈ r.members) {name : String}
      (hfound : m.registry.member name = .ok target) :
      target ∈ r.members ∧ r.entities.get? name = some target.entity := by
    rw [(mem_members_iff.1 hm).1] at hfound
    obtain ⟨hregistry, hfound⟩ := member_eq_ok_iff.1 hfound
    exact ⟨mem_members_iff.2 ⟨hregistry, Assoc.mem_values_of_get? hfound⟩, hfound⟩
  refine { indexes := fun table m hm i hi key hkey => ?_, keys := fun name key hkey => ?_ }
  · have hm := (mem_of_provider? hm).1
    exact Member.hasColumn_of_isStored (h.indexes _ (hentity hm) i hi key hkey)
  obtain ⟨m, hm, hkey⟩ := List.mem_flatMap.1 (List.mem_of_find?_eq_some hkey)
  rw [List.forall_mem_cons, List.forall_mem_singleton]
  rcases List.mem_append.1 hkey with hkey | hkey
  · obtain ⟨entry, hentry, reference, hreference, hkey⟩ := Member.mem_fieldKeys_iff.1 hkey
    obtain ⟨target, hfound, hkey⟩ := ok_of_bind_eq_ok hkey
    cases hkey
    obtain ⟨hstored, hreferenced⟩ := h.references _ (hentity hm) entry hentry reference hreference
    obtain ⟨hmember, hfound⟩ := htarget hm hfound
    have hnear : ∀ key ∈ [entry.1], m.entity.isStored key = true := by
      rw [List.forall_mem_singleton, Entity.isStored, Assoc.get?_eq_some_iff.2 hentry]
      exact hstored
    have hfar : ∀ key ∈ [reference.field?.getD target.entity.id], target.entity.isStored key = true :=
      List.forall_mem_singleton.2 (hreferenced _ hfound)
    exact ⟨fun _ => h.hasColumn hm hnear, fun _ => h.hasColumn hmember hfar⟩
  · obtain ⟨relation, hrelation, howns, hkey⟩ := Member.mem_relationKeys_iff.1 hkey
    obtain ⟨target, hfound, hkey⟩ := ok_of_bind_eq_ok hkey
    cases hkey
    obtain ⟨hmember, hfound⟩ := htarget hm hfound
    have hpairs := h.relations m hm relation hrelation howns
    have hnear : ∀ key ∈ relation.keyPairs.map (·.near), m.entity.isStored key = true :=
      List.forall_mem_map.2 fun pair hpair => (hpairs pair hpair).1
    have hfar : ∀ key ∈ relation.keyPairs.map (·.far), target.entity.isStored key = true :=
      List.forall_mem_map.2 fun pair hpair => (hpairs pair hpair).2 _ hfound
    refine ⟨fun owner howner => ?_, fun owner howner => ?_⟩
    · have hcolumns := h.hasColumn hm hnear howner
      rwa [List.map_map] at hcolumns
    · have hcolumns := h.hasColumn hmember hfar howner
      rwa [List.map_map] at hcolumns

/-- In a schema that is well formed, what entities declare resolves to columns. -/
theorem refersToColumns_of_isWellFormed (h : r.schemaBy naming = .ok s) (hs : s.IsWellFormed) :
    r.RefersToColumns naming where
  indexes name m hm := by
    obtain ⟨t, ht, -, htable⟩ := exists_table_of_provider? h hm
    rw [← Member.indexes_table_iff, ← htable]
    exact hs.indexed t ht
  keys name key hkey e he owner howner column hcolumn := by
    have hjoined := hs.joined _ ((mem_relationships_iff h).2 ⟨name, key, hkey, rfl⟩)
    rw [referencing_withCascade, referenced_withCascade] at hjoined
    obtain ⟨t, ht, hname, hcolumns⟩ := hjoined e he
    obtain ⟨m, hm, htable⟩ := exists_provider_of_mem_tables h ht
    obtain rfl := Option.some.inj ((hname ▸ hm).symm.trans howner)
    rw [← Member.mem_keys_table_iff, ← htable]
    exact hcolumns column hcolumn

/-- Where what entities declare resolves to columns, the schema is well formed. Its primary keys always
are. -/
theorem RefersToColumns.isWellFormed (hr : r.RefersToColumns naming) (h : r.schemaBy naming = .ok s) :
    s.IsWellFormed where
  toIsNamed := (linking_schemaBy h).named
  attached := isAttached_schemaBy h
  indexed t ht := by
    obtain ⟨m, hm, htable⟩ := exists_provider_of_mem_tables h ht
    have hindexes := Member.indexes_table_iff.2 (hr.indexes _ m hm)
    rwa [← htable] at hindexes
  joined built hbuilt e he := by
    have hlinking := linking_schemaBy h
    obtain ⟨t, ht, howner⟩ := hlinking.toIsLinked.exists_table hlinking.named hbuilt e he
    obtain ⟨key, hkey, rfl⟩ := exists_keyNamed?_of_mem h hbuilt
    rw [referencing_withCascade, referenced_withCascade] at he
    obtain ⟨m, hm, htable⟩ := exists_provider_of_mem_tables h ht
    refine ⟨t, ht, howner, fun column hcolumn => ?_⟩
    have hcolumn := hr.keys _ key hkey e he m (howner ▸ hm) column hcolumn
    rwa [← Member.mem_keys_table_iff, ← htable] at hcolumn
  primaryKey t ht := by
    obtain ⟨m, hm, htable⟩ := exists_provider_of_mem_tables h ht
    have hassembled := (m.assembled_table naming).mem_columns_of_mem_primaryKey
    rwa [← htable] at hassembled

/-- The schema is well formed exactly if what entities declare resolves to columns of stored fields, and then
no statement that creates it names a column that is not created. That is so where they only speak of stored
fields. -/
theorem isWellFormed_iff (h : r.schemaBy naming = .ok s) :
    (s.IsWellFormed ↔ r.RefersToColumns naming) ∧
      (∀ d, s.IsWellFormed ↔ Ddl.NamesCreatedColumns d (s.creation {})) ∧
        (r.UsesStoredFields naming → s.IsWellFormed) := by
  have hlinking := linking_schemaBy h
  refine ⟨⟨refersToColumns_of_isWellFormed h, fun hr => hr.isWellFormed h⟩, fun d => ?_, fun hstored => ?_⟩
  · exact Schema.isWellFormed_iff_namesCreatedColumns d hlinking.named hlinking.toIsLinked
      (isAttached_schemaBy h)
  · exact hstored.refersToColumns.isWellFormed h

/-- Persons have a computed name, but only their stored ones are indexed. -/
theorem isWellFormed_iff_persons :
    let id : Field := { type := .integer }
    let name : Field := { type := .string, indexed := true }
    let computed : Field := { type := .string, computed? := some (.literal "first || last") }
    let person : Entity :=
      { name := "person"
        fields := Assoc.ofPairs [("id", id), ("first", name), ("last", name), ("full", computed)]
        relations := Assoc.ofPairs [("posts",
          { entity := "post", cardinality := .oneToMany, keyPairs := [⟨"id", "author"⟩],
            cascade := true })]
        indexes := [{ fields := ["last", "first"] }] }
    let post : Entity :=
      { name := "post"
        fields := Assoc.ofPairs [("id", id), ("author", id),
          ("reply_to", { type := .integer, reference? := some { entity := "post" } })]
        relations := Assoc.ofPairs [("person",
          { entity := "person", cardinality := .manyToOne, keyPairs := [⟨"author", "id"⟩] })] }
    let r := Registry.ofList [person, post]
    ∃ s, r.schemaBy .verbatim = .ok s ∧ r.UsesStoredFields .verbatim ∧ s.IsWellFormed := by
  intro id name computed person post r
  have hbuilt : (r.schemaBy .verbatim).toOption.isSome = true := by decide +kernel
  have hstored : r.UsesStoredFields .verbatim := by decide +kernel
  obtain ⟨s, hs⟩ := Option.isSome_iff_exists.1 hbuilt
  have hs := toOption_eq_some_iff.1 hs
  exact ⟨s, hs, hstored, (isWellFormed_iff hs).2.2 hstored⟩

/-- An index over a computed field is on a column that the table does not have. -/
theorem indexes_missing_column :
    let person : Entity :=
      { name := "person"
        fields := Assoc.ofPairs [("id", { type := .integer }),
          ("full", { type := .string, computed? := some (.literal "first || last") })]
        indexes := [{ fields := ["full"] }] }
    let r := Registry.ofList [person]
    ∃ s, r.schemaBy .verbatim = .ok s ∧ ¬s.IsWellFormed := by
  intro person r
  have hfalse : (r.schemaBy .verbatim).toOption.map (fun s => decide s.IsWellFormed) = some false := by
    decide +kernel
  obtain ⟨s, hs, hfalse⟩ := Option.map_eq_some_iff.1 hfalse
  exact ⟨s, toOption_eq_some_iff.1 hs, of_decide_eq_false hfalse⟩

end Registry

end EntitySql
