import EntitySql.Proofs.Schema.DependencyOrder
import EntitySql.Proofs.Schema.Objects
import EntitySql.Proofs.Schema.SelfComparison
/-!
# Schemas of registries

The schema of a registry is put together in three rounds, each of which goes through the entities: tables,
then foreign keys between them, and then the actions on deletes. `Registry.schemaBy_induction` is the induction
along these rounds. By it the schema is linked (`Registry.isLinked_schemaBy`), and its tables are those of
the entities (`Registry.exists_member_of_mem_tables`).
-/

namespace EntitySql

namespace Registry

variable {r : Registry} {naming : Naming} {s : Schema}

theorem mem_keys_foldl_addTable {name : String} {members : List Member} {s : Schema}
    (h : name ∈ s.tables.keys ∨ ∃ m ∈ members, (m.table naming).name = name) :
    name ∈ (members.foldl (fun s m => s.addTable (m.table naming)) s).tables.keys := by
  induction members generalizing s with
  | nil => simpa using h
  | cons first rest ih =>
    have hadded {other : String} :
        other ∈ (s.addTable (first.table naming)).tables.keys ↔
          other = (first.table naming).name ∨ other ∈ s.tables.keys := Assoc.mem_keys_insert
    refine ih ?_
    rcases h with hold | ⟨m, hm, rfl⟩
    · exact .inl (hadded.2 (.inr hold))
    · rcases List.mem_cons.1 hm with rfl | hm
      · exact .inl (hadded.2 (.inl rfl))
      · exact .inr ⟨m, hm, rfl⟩

/-- The first round only adds the tables of the entities. -/
theorem filled_of_members (r : Registry) (naming : Naming) :
    let filled : Schema := r.members.foldl (fun s m => s.addTable (m.table naming)) {}
    filled.relationships = {} ∧ filled.tables.IsNamed Table.name ∧
      ∀ t ∈ filled.tables.values, ∃ m ∈ r.members, t = m.table naming := by
  refine List.foldlRecOn (motive := fun s : Schema => s.relationships = {} ∧
    s.tables.IsNamed Table.name ∧ ∀ t ∈ s.tables.values, ∃ m ∈ r.members, t = m.table naming)
    _ _ ⟨rfl, .empty, fun _ ht => nomatch ht⟩ ?_
  rintro s ⟨hempty, hnamed, hmembers⟩ m hm
  exact ⟨hempty, hnamed.insert rfl, Assoc.forall_mem_values_insert hmembers ⟨m, hm, rfl⟩⟩

/-- The schema of a registry: what holds of the tables of its entities and is kept when a relationship of a
new name is added between two of them, and when a relationship says more about deletes, holds of the
schema. -/
theorem schemaBy_rounds {P : Schema → Prop}
    (htables : P (r.members.foldl (fun s m => s.addTable (m.table naming)) {}))
    (hkey : ∀ m ∈ r.members, ∀ keys, m.foreignKeys naming = .ok keys → ∀ key ∈ keys, ∀ s : Schema,
      key.name ∉ s.relationships.keys → key.referencing.table ∈ s.tables.keys →
        key.referenced.table ∈ s.tables.keys → P s → P (s.addForeignKey key))
    (hcascade : ∀ (s : Schema) (name : String), P s → P (s.cascade name))
    (h : r.schemaBy naming = .ok s) : P s := by
  obtain ⟨linked, hlinked, hcascaded⟩ := ok_of_bind_eq_ok h
  have hlinked : P linked := by
    refine of_foldlM_eq_ok_of_mem (fun m hm s s' hs hstep => ?_) htables hlinked
    obtain ⟨keys, hkeys, hadded⟩ := ok_of_bind_eq_ok hstep
    have hkeys : m.foreignKeys naming = .ok keys := by
      cases hresult : m.foreignKeys naming <;> rw [hresult] at hkeys <;> cases hkeys
      rfl
    refine of_foldlM_eq_ok_of_mem (fun key hmem s s' hs hstep => ?_) hs hadded
    split at hstep
    · cases hstep
      exact hs
    · rename_i hfresh
      obtain ⟨hreferencing, hreferenced, rfl⟩ := Schema.addRelationship_eq_ok_iff.1 hstep
      exact hkey m hm keys hkeys key hmem s (by simpa using hfresh) hreferencing hreferenced hs
  refine of_foldlM_eq_ok (fun s m s' hs hstep => ?_) hlinked hcascaded
  obtain ⟨names, _, hcascaded⟩ := ok_of_bind_eq_ok hstep
  cases hcascaded
  exact List.foldlRecOn (motive := P) names _ hs fun s hs name _ => hcascade s name hs

/-- The same for what holds of all tables that have the names of entities. -/
theorem schemaBy_induction {P : Schema → Prop}
    (htables : ∀ s : Schema, s.relationships = {} → s.tables.IsNamed Table.name →
      (∀ t ∈ s.tables.values, ∃ m ∈ r.members, t = m.table naming) →
        (∀ m ∈ r.members, (m.table naming).name ∈ s.tables.keys) → P s)
    (hkey : ∀ m ∈ r.members, ∀ keys, m.foreignKeys naming = .ok keys → ∀ key ∈ keys, ∀ s : Schema,
      key.name ∉ s.relationships.keys → key.referencing.table ∈ s.tables.keys →
        key.referenced.table ∈ s.tables.keys → P s → P (s.addForeignKey key))
    (hcascade : ∀ (s : Schema) (name : String), P s → P (s.cascade name))
    (h : r.schemaBy naming = .ok s) : P s := by
  refine schemaBy_rounds ?_ hkey hcascade h
  obtain ⟨hempty, hnamed, hmembers⟩ := r.filled_of_members naming
  exact htables _ hempty hnamed hmembers fun m hm => mem_keys_foldl_addTable (.inr ⟨m, hm, rfl⟩)

end Registry

namespace Schema

@[simp]
theorem mem_link_iff {name other : String} {names : List String} :
    other ∈ link name names ↔ other = name ∨ other ∈ names := by
  unfold link
  split
  · refine ⟨.inr, ?_⟩
    rintro (rfl | h)
    · simpa using ‹names.contains other = true›
    · exact h
  · simp [or_comm]

/-- Adding a relationship changes the links of its tables. -/
theorem table?_addForeignKey (s : Schema) (key : Relationship) (name : String) :
    (s.addForeignKey key).table? name = (s.table? name).map fun t =>
      { t with
        outgoing := if name = key.referencing.table then link key.name t.outgoing else t.outgoing
        incoming := if name = key.referenced.table then link key.name t.incoming else t.incoming } := by
  simp only [table?, addForeignKey, Assoc.get?_modify]
  cases s.tables.get? name with
  | none => simp
  | some t => split <;> split <;> simp_all

theorem keys_tables_addForeignKey (s : Schema) (key : Relationship) :
    (s.addForeignKey key).tables.keys = s.tables.keys := by
  rw [addForeignKey, Assoc.keys_modify, Assoc.keys_modify]

/-- What is kept while relationships are added: the links of the tables are complete and lead to
relationships. -/
structure Linking (s : Schema) : Prop extends s.IsLinked where
  named : s.IsNamed
  /-- No table lists a relationship that does not exist. -/
  existing : ∀ t ∈ s.tables.values, ∀ name ∈ t.outgoing, name ∈ s.relationships.keys

variable {s : Schema}

theorem Linking.addForeignKey (h : s.Linking) {key : Relationship}
    (hfresh : key.name ∉ s.relationships.keys) (hreferencing : key.referencing.table ∈ s.tables.keys)
    (hreferenced : key.referenced.table ∈ s.tables.keys) : (s.addForeignKey key).Linking := by
  have hkeys := s.keys_tables_addForeignKey key
  -- A table lists what it listed before and the key that is added if it is its owner.
  have htables : ∀ t ∈ (s.addForeignKey key).tables.values, ∃ u ∈ s.tables.values, t.name = u.name ∧
      ∀ name, name ∈ t.outgoing ↔
        key.referencing.table = u.name ∧ name = key.name ∨ name ∈ u.outgoing := by
    intro t ht
    obtain ⟨name, hget⟩ := Assoc.mem_values_iff.1 ht
    obtain ⟨u, hu, rfl⟩ := Option.map_eq_some_iff.1 ((s.table?_addForeignKey key name).symm.trans hget)
    refine ⟨u, Assoc.mem_values_of_get? hu, rfl, fun other => ?_⟩
    rw [h.named.tables name u hu, eq_comm (a := key.referencing.table)]
    by_cases howner : name = key.referencing.table <;> simp [howner]
  have hrelationships : ∀ r ∈ (s.addForeignKey key).relationships.values,
      r = key ∨ r ∈ s.relationships.values ∧ r.name ≠ key.name := by
    intro r hr
    obtain ⟨name, hget⟩ := Assoc.mem_values_iff.1 hr
    rw [Schema.addForeignKey, Assoc.get?_insert] at hget
    split at hget
    · exact .inl (Option.some.inj hget).symm
    · have hmem := Assoc.mem_values_of_get? hget
      exact .inr ⟨hmem, (h.named.relationships name r hget).trans_ne ‹_›⟩
  refine { named := h.named.addForeignKey key, joined := ?_, outgoing := ?_, existing := ?_ }
  · intro r hr
    rw [hkeys]
    rcases hrelationships r hr with rfl | ⟨hr, _⟩
    · exact ⟨hreferencing, hreferenced⟩
    · exact h.joined r hr
  · intro t ht r hr
    obtain ⟨u, hu, hname, hlisted⟩ := htables t ht
    rw [hlisted, hname]
    rcases hrelationships r hr with rfl | ⟨hr, hne⟩
    · have hnew : r.name ∉ u.outgoing := fun hmem => hfresh (h.existing u hu _ hmem)
      simp [hnew]
    · simp [hne, h.outgoing u hu r hr]
  · intro t ht name hname
    obtain ⟨u, hu, _, hlisted⟩ := htables t ht
    rw [Schema.addForeignKey, Assoc.keys_insert, if_neg hfresh, List.mem_append, List.mem_singleton]
    rcases (hlisted name).1 hname with ⟨_, rfl⟩ | hold
    · exact .inr rfl
    · exact .inl (h.existing u hu name hold)

theorem Linking.cascade (h : s.Linking) (name : String) : (s.cascade name).Linking := by
  have hrelationships : ∀ r ∈ (s.cascade name).relationships.values, ∃ old ∈ s.relationships.values,
      r.name = old.name ∧ r.referencing = old.referencing ∧ r.referenced = old.referenced :=
    Assoc.forall_mem_values_modify (fun r hr => ⟨r, hr, rfl, rfl, rfl⟩) fun _ h => h
  refine { named := h.named.cascade name, joined := ?_, outgoing := ?_, existing := ?_ }
  · intro r hr
    obtain ⟨old, hold, _, hreferencing, hreferenced⟩ := hrelationships r hr
    rw [hreferencing, hreferenced]
    exact h.joined old hold
  · intro t ht r hr
    obtain ⟨old, hold, hname, hreferencing, _⟩ := hrelationships r hr
    rw [hname, hreferencing]
    exact h.outgoing t ht old hold
  · intro t ht other hother
    rw [Schema.cascade, Assoc.keys_modify]
    exact h.existing t ht other hother

end Schema

namespace Member

variable (m : Member) (naming : Naming)

/-- The columns of the fields that have one. -/
def columns : List Column :=
  (m.entity.fields.entries.filter fun (_, f) => f.isStored).map fun (key, f) => m.column naming key f

/-- The indexes of an entity: those of its fields and those that it declares. -/
def indexes : List Index :=
  m.fieldIndexes naming ++ m.entity.indexes.map (m.declaredIndex naming)

/-- The table of an entity with all that is added to it. -/
theorem table_eq :
    ∃ primaryKey, m.table naming =
      { name := m.tableNameBy naming
        comment? := m.entity.comment?
        primaryKey := primaryKey
        columns := (m.columns naming).foldl
          (fun a c => a.insert c.name { c with table := m.tableNameBy naming }) {}
        indexes := (m.indexes naming).map fun i => { i with table := m.tableNameBy naming } } := by
  obtain ⟨primaryKey, hcolumns⟩ := Table.foldl_addColumn (m.columns naming)
    { name := m.tableNameBy naming, comment? := m.entity.comment? }
  refine ⟨primaryKey, (Table.foldl_addIndex (m.indexes naming) _).trans ?_⟩
  rw [← columns, hcolumns]
  rfl

end Member

namespace Registry

variable {r : Registry} {naming : Naming} {s : Schema}

theorem linking_schemaBy (h : r.schemaBy naming = .ok s) : s.Linking := by
  refine schemaBy_induction (fun s hempty hnamed hmembers _ => ?_)
    (fun m _ keys _ key _ s hfresh hreferencing hreferenced hs =>
      hs.addForeignKey hfresh hreferencing hreferenced) (fun s name hs => hs.cascade name) h
  have hnone : s.relationships.values = [] := by
    rw [hempty]
    rfl
  have hcolumns : ∀ t ∈ s.tables.values, t.columns.IsNamed Column.name := by
    intro t ht
    obtain ⟨m, _, rfl⟩ := hmembers t ht
    exact (m.assembled_table naming).isNamed
  refine { named := ⟨hnamed, hcolumns, hempty ▸ .empty⟩, joined := ?_, outgoing := ?_, existing := ?_ }
  · simp [hnone]
  · simp [hnone]
  · intro t ht name hname
    obtain ⟨m, _, rfl⟩ := hmembers t ht
    obtain ⟨_, htable⟩ := m.table_eq naming
    rw [htable] at hname
    cases hname

/-- In the schema of a registry relationships join tables, which list those that they declare. -/
theorem isLinked_schemaBy (h : r.schemaBy naming = .ok s) : s.IsLinked := (linking_schemaBy h).toIsLinked

/-- Each table is that of an entity, but for its links. -/
theorem exists_member_of_mem_tables (h : r.schemaBy naming = .ok s) :
    ∀ t ∈ s.tables.values, ∃ m ∈ r.members, t.unlinked = m.table naming := by
  refine schemaBy_induction
    (P := fun s => ∀ t ∈ s.tables.values, ∃ m ∈ r.members, t.unlinked = m.table naming)
    (fun s _ _ hmembers _ t ht => ?_) (fun m _ keys _ key _ s _ _ _ hs t ht => ?_)
    (fun _ _ hs => hs) h
  · obtain ⟨m, hm, rfl⟩ := hmembers t ht
    obtain ⟨_, htable⟩ := m.table_eq naming
    exact ⟨m, hm, by rw [htable]; rfl⟩
  · obtain ⟨name, hget⟩ := Assoc.mem_values_iff.1 ht
    obtain ⟨u, hu, rfl⟩ := Option.map_eq_some_iff.1 ((s.table?_addForeignKey key name).symm.trans hget)
    exact hs u (Assoc.mem_values_of_get? hu)

/-- Each entity has a table. -/
theorem tableNameBy_mem_keys (h : r.schemaBy naming = .ok s) :
    ∀ m ∈ r.members, m.tableNameBy naming ∈ s.tables.keys := by
  refine schemaBy_induction (P := fun s => ∀ m ∈ r.members, m.tableNameBy naming ∈ s.tables.keys)
    (fun s _ _ _ hfilled m hm => ?_) (fun _ _ _ _ key _ s _ _ _ hs m hm => ?_) (fun _ _ hs => hs) h
  · obtain ⟨_, htable⟩ := m.table_eq naming
    have hname : (m.table naming).name = m.tableNameBy naming := congrArg Table.name htable
    exact hname ▸ hfilled m hm
  · rw [s.keys_tables_addForeignKey key]
    exact hs m hm

theorem isAttached_schemaBy (h : r.schemaBy naming = .ok s) : s.IsAttached := by
  intro t ht i hi
  obtain ⟨m, _, hunlinked⟩ := exists_member_of_mem_tables h t ht
  obtain ⟨_, htable⟩ := m.table_eq naming
  rw [htable] at hunlinked
  have hindexes := congrArg Table.indexes hunlinked
  have hname := congrArg Table.name hunlinked
  dsimp only [Table.unlinked] at hindexes hname
  rw [hindexes] at hi
  obtain ⟨_, _, rfl⟩ := List.mem_map.1 hi
  exact hname.symm

end Registry

/-! ## Stored types -/

namespace Schema

/-- A schema as a database would report it: only the types of columns change. -/
theorem mem_tables_normalizeTypes {s : Schema} {d : Dialect} {t : Table} :
    t ∈ (s.normalizeTypes d).tables.values ↔ ∃ u ∈ s.tables.values, t = u.normalizeTypes d := by
  simp only [normalizeTypes, Assoc.values_mapValues, List.mem_map, eq_comm]

variable {s : Schema} (d : Dialect)

@[simp]
theorem keys_tables_normalizeTypes : (s.normalizeTypes d).tables.keys = s.tables.keys :=
  Assoc.keys_mapValues _ _

theorem IsNamed.normalizeTypes (h : s.IsNamed) : (s.normalizeTypes d).IsNamed where
  tables name t ht := by
    rw [Schema.normalizeTypes, Assoc.get?_mapValues] at ht
    obtain ⟨u, hu, rfl⟩ := Option.map_eq_some_iff.1 ht
    exact h.tables name u hu
  columns t ht name c hc := by
    obtain ⟨u, hu, rfl⟩ := mem_tables_normalizeTypes.1 ht
    rw [Table.normalizeTypes, Assoc.get?_mapValues] at hc
    obtain ⟨old, hold, rfl⟩ := Option.map_eq_some_iff.1 hc
    exact h.columns u hu name old hold
  relationships := h.relationships

theorem IsLinked.normalizeTypes (h : s.IsLinked) : (s.normalizeTypes d).IsLinked where
  joined r hr := by
    rw [keys_tables_normalizeTypes]
    exact h.joined r hr
  outgoing t ht := by
    obtain ⟨u, hu, rfl⟩ := mem_tables_normalizeTypes.1 ht
    exact h.outgoing u hu

theorem IsAttached.normalizeTypes (h : s.IsAttached) : (s.normalizeTypes d).IsAttached := by
  intro t ht
  obtain ⟨u, hu, rfl⟩ := mem_tables_normalizeTypes.1 ht
  exact h u hu

/-- Which tables refer to which does not depend on the types of columns. -/
theorem isAcyclic_normalizeTypes : (s.normalizeTypes d).IsAcyclic ↔ s.IsAcyclic := Iff.rfl

end Schema

end EntitySql
