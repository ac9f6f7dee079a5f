import EntitySql.Proofs.Schema.FromRegistry
import EntitySql.Proofs.Sqlite.ReadTable
/-!
# A schema is read back

What is reported after statements that create simple tables (`Sqlite.Reports`) is read back as a schema of the
tables whose names do not count as SQLite's own. Of their foreign keys those are read back that refer to one of
these tables (`Sqlite.yields_introspect`).
-/

namespace EntitySql

/-- What is told of the foreign keys of an entity can be read back: they are told in pairs of columns and are
named after their columns. -/
structure Relationship.IsSimple (key : Relationship) : Prop where
  columns : key.referencing.columns ≠ []
  length : key.referenced.columns.length = key.referencing.columns.length
  name : key.name = Schema.foreignKeyName key.referencing.table key.referencing.columns

/-- What is told of all tables and foreign keys can be read back. -/
structure Schema.IsSimple (s : Schema) : Prop where
  tables : ∀ t ∈ s.tables.values, t.IsSimple
  keys : ∀ key ∈ s.relationships.values, key.IsSimple

/-- A foreign key as it is read back: its actions are told in any case. -/
def Relationship.read (key : Relationship) : Relationship :=
  { name := key.name
    referencing := key.referencing
    referenced := key.referenced
    onDelete? := some key.deleteAction
    onUpdate? := some key.updateAction }

namespace Sqlite

variable {σ : Type} {q : Querier σ} {s : σ}

/-- If only one item brings anything, that is all there is. -/
theorem flatMap_eq_of_mem {α β : Type} {f : α → List β} {items : List α} {a : α} (hnodup : items.Nodup)
    (hmem : a ∈ items) (hother : ∀ b ∈ items, b ≠ a → f b = []) : items.flatMap f = f a := by
  obtain ⟨before, after, rfl⟩ := List.append_of_mem hmem
  rw [List.nodup_append, List.nodup_cons] at hnodup
  obtain ⟨_, ⟨hafter, _⟩, hbefore⟩ := hnodup
  rw [List.flatMap_append, List.flatMap_cons, List.flatMap_eq_nil_iff.2 fun b hb => hother b ?_ ?_,
    List.flatMap_eq_nil_iff.2 fun b hb => hother b ?_ ?_, List.nil_append, List.append_nil]
  · exact List.mem_append_right _ (.tail _ hb)
  · exact fun hsame => hafter (hsame ▸ hb)
  · exact List.mem_append_left _ hb
  · exact hbefore b hb a (.head _)

/-! ## Foreign keys -/

/-- The numbers by which rows are grouped, in ascending order. -/
def groupNumbers (column : String) (rows : List Row) : List Int :=
  ((rows.map (numberOf · column)).mergeSort fun a b => a ≤ b).eraseDups

theorem groupRows_eq (column : String) (rows : List Row) :
    groupRows column rows =
      (groupNumbers column rows).map fun n => rows.filter fun row => numberOf row column = n := rfl

theorem mem_groupNumbers_iff {column : String} {rows : List Row} {n : Int} :
    n ∈ groupNumbers column rows ↔ n ∈ rows.map (numberOf · column) := by
  rw [groupNumbers, List.mem_eraseDups, (List.mergeSort_perm _ _).mem_iff]

section Keys

variable {key : Relationship} (id : Nat)

/-- An action is read from its keywords. -/
theorem Holds.actionOf? {row : Row} {cells : Cells} (h : Holds row cells) {column : String}
    {action : ReferentialAction} (hmem : (column, .text action.keyword) ∈ cells) :
    actionOf? row column = some action := by
  rw [Sqlite.actionOf?, h.textOf? hmem]
  cases action <;> decide +kernel

variable {id} in
theorem of_mem_partsOf {p : KeyPart} (h : p ∈ partsOf key id) : p.id = id ∧ p.key = key := by
  obtain ⟨_, _, rfl⟩ := List.mem_map.1 h
  exact ⟨rfl, rfl⟩

theorem map_column_partsOf (h : key.IsSimple) :
    (partsOf key id).map (·.column) = key.referencing.columns := by
  rw [partsOf, List.map_map]
  change (List.zipIdx _).map (Prod.fst ∘ Prod.fst) = _
  rw [← List.map_map, List.zipIdx_map_fst, List.map_fst_zip (Nat.le_of_eq h.length.symm)]

theorem map_target_partsOf (h : key.IsSimple) :
    (partsOf key id).map (·.target) = key.referenced.columns := by
  rw [partsOf, List.map_map]
  change (List.zipIdx _).map (Prod.snd ∘ Prod.fst) = _
  rw [← List.map_map, List.zipIdx_map_fst, List.map_snd_zip (Nat.le_of_eq h.length)]

theorem partsOf_ne_nil (h : key.IsSimple) : partsOf key id ≠ [] := fun hnil => h.columns (by
  rw [← map_column_partsOf id h, hnil, List.map_nil])

variable {id}

/-- The parts with a number are those of the key that has it. -/
theorem filter_keyParts {keys : List Relationship} (h : (key, id) ∈ keys.zipIdx) :
    (keyParts keys).filter (·.id = id) = partsOf key id := by
  have hnodup : keys.zipIdx.Nodup := by
    refine .of_map Prod.snd ?_
    rw [List.zipIdx_map_snd]
    exact List.nodup_range' 1
  rw [keyParts, List.filter_flatMap, flatMap_eq_of_mem hnodup h fun entry hentry hne => ?_]
  · exact List.filter_eq_self.2 fun p hp => by simpa using (of_mem_partsOf hp).1
  · refine List.filter_eq_nil_iff.2 fun p hp => ?_
    rw [decide_eq_true_iff, (of_mem_partsOf hp).1]
    intro hid
    have hown : keys[id]? = some entry.1 := hid ▸ List.mem_zipIdx_iff_getElem?.1 hentry
    rw [List.mem_zipIdx_iff_getElem?.1 h] at hown
    exact hne (Prod.ext (Option.some.inj hown).symm hid)

/-- The rows of a foreign key are in order of its columns. -/
theorem sortRows_partsOf {parts : List Row}
    (h : List.Forall₂ (fun row p => Holds row p.cells) parts (partsOf key id)) :
    sortRows "seq" parts = parts := by
  have hplaces : parts.map (numberOf · "seq") = (partsOf key id).map fun p => (p.place : Int) :=
    map_eq_of_forall₂ h fun row p _ hrow => hrow.numberOf (by simp [KeyPart.cells])
  refine sortRows_eq 0 (key.referencing.columns.zip key.referenced.columns).length (hplaces.trans ?_)
  rw [← List.zipIdx_map_snd, List.map_map, partsOf, List.map_map]
  rfl

theorem yields_foreignKey {first : Row} {rest : List Row} (hkey : key.IsSimple)
    (h : List.Forall₂ (fun row p => Holds row p.cells) (first :: rest) (partsOf key id)) :
    (foreignKey q key.referencing.table first (first :: rest)).Yields s key.read := by
  have hcolumns : (first :: rest).filterMap (textOf? · "from") = key.referencing.columns := by
    rw [← map_column_partsOf id hkey]
    exact filterMap_eq_of_map_eq
      (map_eq_of_forall₂ h fun row p _ hrow => hrow.textOf? (by simp [KeyPart.cells]))
  have htargets : (first :: rest).filterMap (textOf? · "to") = key.referenced.columns := by
    rw [← map_target_partsOf id hkey]
    exact filterMap_eq_of_map_eq
      (map_eq_of_forall₂ h fun row p _ hrow => hrow.textOf? (by simp [KeyPart.cells]))
  have hnamed : key.referenced.columns.isEmpty = false := by
    rw [List.isEmpty_eq_false_iff]
    exact fun hnil => hkey.columns (List.eq_nil_of_length_eq_zero (by rw [← hkey.length, hnil]; rfl))
  obtain ⟨p, ps, hp, _, hsplit⟩ := List.forall₂_cons_left_iff.1 h
  obtain rfl := (of_mem_partsOf (hsplit ▸ List.Mem.head ps)).2
  have htable : textOf first "table" = p.key.referenced.table := hp.textOf (by simp [KeyPart.cells])
  have hdelete : actionOf? first "on_delete" = some p.key.deleteAction :=
    hp.actionOf? (by simp [KeyPart.cells])
  have hupdate : actionOf? first "on_update" = some p.key.updateAction :=
    hp.actionOf? (by simp [KeyPart.cells])
  simp only [foreignKey, hcolumns, htargets, hnamed, htable, hdelete, hupdate, ← hkey.name]
  exact .of_pure _

/-- The rows with the number of a key are its parts, from which it is read back. -/
theorem yields_group {table : String} {keys : List Relationship} {rows : List Row}
    (hrows : List.Forall₂ (fun row p => Holds row p.cells) rows (keyParts keys))
    (hmem : (key, id) ∈ keys.zipIdx) (hkey : key.IsSimple) (howner : key.referencing.table = table) :
    (match sortRows "seq" (rows.filter fun row => numberOf row "id" = id) with
      | [] => return none
      | first :: rest => return some (← foreignKey q table first (first :: rest)) : Action σ _).Yields s
        (some key.read) := by
  have hgroup : List.Forall₂ (fun row p => Holds row p.cells)
      (rows.filter fun row => numberOf row "id" = id) (partsOf key id) := by
    rw [← filter_keyParts hmem]
    refine List.rel_filter (fun row p hrow => ?_) hrows
    have hid : numberOf row "id" = p.id := hrow.numberOf (.head _)
    simp only [decide_eq_true_iff, hid, Int.natCast_inj]
  rw [sortRows_partsOf hgroup]
  revert hgroup
  cases rows.filter fun row => numberOf row "id" = id with
  | nil => exact fun hgroup => absurd (List.forall₂_nil_left_iff.1 hgroup) (partsOf_ne_nil id hkey)
  | cons first rest =>
    intro hgroup
    refine Action.Yields.bind (b := key.read) ?_ (.of_pure _)
    exact howner ▸ yields_foreignKey hkey hgroup

/-- The numbers in the rows are those of the keys, as each key has a pair of columns. -/
theorem mem_groupNumbers_keyParts_iff {keys : List Relationship} {rows : List Row}
    (hrows : List.Forall₂ (fun row p => Holds row p.cells) rows (keyParts keys))
    (hkeys : ∀ key ∈ keys, key.IsSimple) {n : Int} :
    n ∈ groupNumbers "id" rows ↔ ∃ key id, (key, id) ∈ keys.zipIdx ∧ n = (id : Int) := by
  have hids : rows.map (numberOf · "id") = (keyParts keys).map fun p => (p.id : Int) :=
    map_eq_of_forall₂ hrows fun _ _ _ hrow => hrow.numberOf (.head _)
  rw [mem_groupNumbers_iff, hids, List.mem_map]
  constructor
  · rintro ⟨p, hp, rfl⟩
    obtain ⟨⟨key, id⟩, hmem, hp⟩ := List.mem_flatMap.1 hp
    exact ⟨key, id, hmem, congrArg Int.ofNat (of_mem_partsOf hp).1⟩
  · rintro ⟨key, id, hmem, rfl⟩
    have hsimple := hkeys key (List.fst_mem_of_mem_zipIdx hmem)
    obtain ⟨p, hp⟩ := List.exists_mem_of_ne_nil _ (partsOf_ne_nil id hsimple)
    exact ⟨p, List.mem_flatMap.2 ⟨_, hmem, hp⟩, congrArg Int.ofNat (of_mem_partsOf hp).1⟩

/-- The key of a number, as it is read back. -/
def readKey? (keys : List Relationship) (n : Int) : Option Relationship :=
  keys[n.toNat]?.map Relationship.read

theorem readKey?_of_mem_zipIdx {keys : List Relationship} (hmem : (key, id) ∈ keys.zipIdx) :
    readKey? keys (id : Int) = some key.read := by
  simp only [readKey?, Int.toNat_natCast, List.mem_zipIdx_iff_getElem?.1 hmem, Option.map_some]

/-- The foreign keys of a table are read back. -/
theorem yields_foreignKeys {table : String} {keys : List Relationship}
    (h : Answers q s (pragmaQuery "foreign_key_list" table) ((keyParts keys).map (·.cells)))
    (hkeys : ∀ key ∈ keys, key.IsSimple ∧ key.referencing.table = table) :
    ∃ found, (foreignKeys q table).Yields s found ∧ ∀ r, r ∈ found ↔ ∃ key ∈ keys, r = key.read := by
  obtain ⟨rows, hyields, hrows⟩ := h
  rw [List.forall₂_map_right_iff] at hrows
  have hnumbers := @mem_groupNumbers_keyParts_iff keys rows hrows fun key hkey => (hkeys key hkey).1
  refine ⟨(groupNumbers "id" rows).filterMap (readKey? keys), ?_, fun r => ?_⟩
  · refine hyields.bind ?_
    rw [groupRows_eq, List.mapM_map]
    refine Action.Yields.bind (b := (groupNumbers "id" rows).map (readKey? keys))
      (Action.Yields.mapM fun n hn => ?_) ?_
    · obtain ⟨key, id, hmem, rfl⟩ := hnumbers.1 hn
      obtain ⟨hsimple, howner⟩ := hkeys key (List.fst_mem_of_mem_zipIdx hmem)
      rw [readKey?_of_mem_zipIdx hmem]
      exact yields_group hrows hmem hsimple howner
    · rw [List.filterMap_map]
      exact .of_pure _
  · simp only [List.mem_filterMap, hnumbers]
    constructor
    · rintro ⟨_, ⟨key, id, hmem, rfl⟩, hr⟩
      rw [readKey?_of_mem_zipIdx hmem] at hr
      exact ⟨key, List.fst_mem_of_mem_zipIdx hmem, (Option.some.inj hr).symm⟩
    · rintro ⟨key, hmem, rfl⟩
      obtain ⟨id, hid⟩ := List.mem_iff_getElem?.1 hmem
      have hmem : (key, id) ∈ keys.zipIdx := List.mem_zipIdx_iff_getElem?.2 hid
      exact ⟨_, ⟨key, id, hmem, rfl⟩, readKey?_of_mem_zipIdx hmem⟩

end Keys

/-! ## Tables and the foreign keys between them -/

/-- The schema with a foreign key, if both of its tables exist. -/
def linkKnown (schema : Schema) (key : Relationship) : Schema :=
  match schema.addRelationship key with
  | .ok linked => linked
  | .error _ => schema

/-- Foreign keys between tables that exist are added, others are passed over. -/
theorem foldl_linkKnown {names : List String} {schema : Schema}
    (h : ∀ name, name ∈ schema.tables.keys ↔ name ∈ names) (keys : List Relationship) :
    keys.foldl linkKnown schema =
      (keys.filter fun key => names.contains key.referencing.table &&
        names.contains key.referenced.table).foldl Schema.addForeignKey schema := by
  induction keys generalizing schema with
  | nil => rfl
  | cons key rest ih =>
    by_cases hknown : key.referencing.table ∈ names ∧ key.referenced.table ∈ names
    · have hlinked : linkKnown schema key = schema.addForeignKey key := by
        rw [linkKnown, Schema.addRelationship_eq_ok_iff.2 ⟨(h _).2 hknown.1, (h _).2 hknown.2, rfl⟩]
      rw [List.filter_cons_of_pos (by simpa using hknown), List.foldl_cons, List.foldl_cons, hlinked]
      apply ih
      rwa [schema.keys_tables_addForeignKey key]
    · have hpassed : linkKnown schema key = schema := by
        rw [linkKnown]
        split
        · rename_i hlinked
          have hboth := Schema.addRelationship_eq_ok_iff.1 hlinked
          exact absurd ⟨(h _).1 hboth.1, (h _).1 hboth.2.1⟩ hknown
        · rfl
      rw [List.filter_cons_of_neg (by simpa using hknown), List.foldl_cons, hpassed]
      exact ih h

/-- Relationships that are told apart by their names all stay. -/
theorem mem_values_foldl_insert {keys : List Relationship}
    (hkeys : ∀ key ∈ keys, ∀ other ∈ keys, other.name = key.name → other = key) {r : Relationship} :
    r ∈ (keys.foldl (fun a key => a.insert key.name key) (∅ : Assoc Relationship)).values ↔ r ∈ keys := by
  have hnamed : (keys.foldl (fun a key => a.insert key.name key) (∅ : Assoc Relationship)).IsNamed
      Relationship.name := Assoc.IsNamed.empty.foldl_insert fun _ => rfl
  rw [Assoc.mem_values_iff]
  constructor
  · rintro ⟨name, hget⟩
    by_cases hname : name ∈ keys.map (·.name)
    · obtain ⟨key, hkey, rfl⟩ := List.mem_map.1 hname
      rw [Assoc.get?_foldl_insert_of_mem _ hname fun other hother => hkeys key hkey other hother] at hget
      exact Option.some.inj hget ▸ hkey
    · rw [Assoc.get?_foldl_insert_of_notMem _ hname] at hget
      cases hget
  · intro hr
    exact ⟨r.name, Assoc.get?_foldl_insert_of_mem _ (List.mem_map.2 ⟨r, hr, rfl⟩) (hkeys r hr)⟩

section Linked

variable (names : List String) (read : String → Table) (found : String → List Relationship)

/-- The tables that were read under the names. -/
def filledSchema : Schema := (names.map read).foldl Schema.addTable {}

/-- The foreign keys that were found at the tables and that are between them. -/
def knownKeys : List Relationship :=
  ((filledSchema names read).tables.values.flatMap fun t => found t.name).filter fun key =>
    names.contains key.referencing.table && names.contains key.referenced.table

/-- The tables that were read and the foreign keys between them. -/
def linkedSchema : Schema :=
  (knownKeys names read found).foldl Schema.addForeignKey (filledSchema names read)

theorem tables_filledSchema : (filledSchema names read).tables =
    (names.map read).foldl (fun a t => a.insert t.name t) (∅ : Assoc Table) :=
  (List.foldl_hom Schema.tables fun _ _ => rfl).symm

theorem isNamed_filledSchema : (filledSchema names read).tables.IsNamed Table.name := by
  rw [tables_filledSchema]
  exact Assoc.IsNamed.empty.foldl_insert fun _ => rfl

theorem relationships_linkedSchema : (linkedSchema names read found).relationships =
    (knownKeys names read found).foldl (fun a key => a.insert key.name key)
      (∅ : Assoc Relationship) := by
  have hfilled : (filledSchema names read).relationships = {} :=
    List.foldlRecOn (motive := fun schema : Schema => schema.relationships = {}) _ _ rfl
      fun _ h _ _ => h
  rw [linkedSchema, Schema.relationships_foldl_addForeignKey, hfilled]

theorem isNamed_tables_linkedSchema :
    (linkedSchema names read found).tables.IsNamed Table.name := by
  refine List.foldlRecOn (motive := fun schema : Schema => schema.tables.IsNamed Table.name) _ _
    (isNamed_filledSchema names read) fun schema h key _ => ?_
  refine Assoc.IsNamed.modify (Assoc.IsNamed.modify h ?_) ?_
  all_goals exact fun _ => rfl

theorem isNamed_relationships_linkedSchema :
    (linkedSchema names read found).relationships.IsNamed Relationship.name := by
  rw [relationships_linkedSchema]
  exact Assoc.IsNamed.empty.foldl_insert fun _ => rfl

variable {names read found} (hown : ∀ name ∈ names, (read name).name = name)
include hown

/-- The tables have their own names. -/
theorem table?_filledSchema (name : String) :
    (filledSchema names read).table? name = if name ∈ names then some (read name) else none := by
  have hnames : (names.map read).map (·.name) = names :=
    List.map_map.trans ((List.map_congr_left hown).trans (List.map_id names))
  rw [Schema.table?, tables_filledSchema]
  split
  · refine Assoc.get?_foldl_insert_of_mem _ (hnames.symm ▸ ‹name ∈ names›) fun t ht hname => ?_
    obtain ⟨other, hother, rfl⟩ := List.mem_map.1 ht
    rw [← hname, hown other hother]
  · exact Assoc.get?_foldl_insert_of_notMem _ (hnames.symm ▸ ‹name ∉ names›)

theorem mem_keys_filledSchema {name : String} :
    name ∈ (filledSchema names read).tables.keys ↔ name ∈ names := by
  rw [Assoc.mem_keys_iff]
  change (∃ t, (filledSchema names read).table? name = some t) ↔ name ∈ names
  rw [table?_filledSchema hown]
  split
  · exact iff_of_true ⟨_, rfl⟩ ‹_›
  · exact iff_of_false nofun ‹_›

theorem mem_keys_linkedSchema {name : String} :
    name ∈ (linkedSchema names read found).tables.keys ↔ name ∈ names := by
  rw [← mem_keys_filledSchema hown, linkedSchema]
  exact List.foldlRecOn (motive := fun schema : Schema =>
    name ∈ schema.tables.keys ↔ name ∈ (filledSchema names read).tables.keys) _ _ .rfl
      fun schema h key _ => (schema.keys_tables_addForeignKey key).symm ▸ h

theorem unlinked?_linkedSchema (name : String) : (linkedSchema names read found).unlinked? name =
    if name ∈ names then some (read name).unlinked else none := by
  rw [linkedSchema, Schema.unlinked?_foldl_addForeignKey, Schema.unlinked?, table?_filledSchema hown]
  split <;> rfl

/-- A foreign key is added if it was found at its table and leads to a table that was read. -/
theorem mem_knownKeys_iff
    (hfound : ∀ name ∈ names, ∀ key ∈ found name, key.referencing.table = name) {r : Relationship} :
    r ∈ knownKeys names read found ↔ r.referencing.table ∈ names ∧ r.referenced.table ∈ names ∧
      r ∈ found r.referencing.table := by
  simp only [knownKeys, List.mem_filter, List.mem_flatMap, Bool.and_eq_true, List.contains_iff_mem]
  constructor
  · rintro ⟨⟨t, ht, hr⟩, hreferencing, hreferenced⟩
    have ht : t.name ∈ names := (mem_keys_filledSchema hown).1
      (Assoc.mem_keys_iff.2 ⟨t, (isNamed_filledSchema names read).get?_of_mem ht⟩)
    exact ⟨hreferencing, hreferenced, (hfound _ ht r hr).symm ▸ hr⟩
  · rintro ⟨hreferencing, hreferenced, hr⟩
    refine ⟨⟨read r.referencing.table, ?_, ?_⟩, hreferencing, hreferenced⟩
    · apply Assoc.mem_values_of_get?
      exact (table?_filledSchema hown _).trans (if_pos hreferencing)
    · rwa [hown _ hreferencing]

/-- What is read of the names, of the tables and of their foreign keys is put together. Names without a table
are passed over. -/
theorem yields_linkedSchema_of_filterMap {listed : List String} {told : String → Option Table}
    (hnames : (tableNames q).Yields s listed) (htold : ∀ name ∈ listed, (table? q name).Yields s (told name))
    (hread : listed.filterMap told = names.map read)
    (hfound : ∀ name ∈ names, (foreignKeys q name).Yields s (found name)) :
    (introspect q).Yields s (linkedSchema names read found) := by
  have hfilled : (listed.map told).filterMap id = names.map read := by
    rw [List.filterMap_map]
    exact hread
  refine hnames.bind ((Action.Yields.mapM htold).bind ?_)
  rw [hfilled, linkedSchema, knownKeys,
    ← foldl_linkKnown fun _ => mem_keys_filledSchema hown, List.foldl_flatMap]
  refine Action.Yields.foldlM (fun schema t ht => ?_) (filledSchema names read)
  have ht : t.name ∈ names := (mem_keys_filledSchema hown).1
    (Assoc.mem_keys_iff.2 ⟨t, (isNamed_filledSchema names read).get?_of_mem ht⟩)
  exact (hfound t.name ht).bind (.of_pure _)

/-- What is read of the names, of the tables and of their foreign keys is put together. -/
theorem yields_linkedSchema (hnames : (tableNames q).Yields s names)
    (hread : ∀ name ∈ names, (table? q name).Yields s (some (read name)))
    (hfound : ∀ name ∈ names, (foreignKeys q name).Yields s (found name)) :
    (introspect q).Yields s (linkedSchema names read found) :=
  yields_linkedSchema_of_filterMap hown hnames hread (congrFun List.filterMap_eq_map' _) hfound

end Linked

/-! ## The whole schema -/

theorem IsReadFrom.of_unlinked {old other t : Table} {created : List Index} {counts : Bool}
    (h : IsReadFrom other t created counts) (hsame : old.unlinked = other.unlinked) :
    IsReadFrom old t created counts where
  name := (congrArg Table.name hsame).trans h.name
  columns := Table.columns_of_unlinked hsame ▸ h.columns
  indexes := Table.indexes_of_unlinked hsame ▸ h.indexes
  distinct := h.distinct

/-- The definitions of the tables that statements create. -/
abbrev definitions (statements : List Ddl) : List TableDefinition := statements.filterMap definition?

/-- Whether the statements create tables and foreign keys that are simple and told apart by their names. -/
structure CreatesSimple (statements : List Ddl) : Prop where
  tables : ∀ definition ∈ definitions statements, definition.table.IsSimple
  keys : ∀ definition ∈ definitions statements, ∀ key ∈ definition.foreignKeys,
    key.IsSimple ∧ key.referencing.table = definition.table.name
  names : ((definitions statements).map (·.table.name)).Nodup
  distinct : ∀ definition ∈ definitions statements, ∀ key ∈ definition.foreignKeys,
    ∀ another ∈ definitions statements, ∀ other ∈ another.foreignKeys, other.name = key.name → other = key

/-- The text of a definition says that the key of its table counts up. -/
def saysCounting (definition : TableDefinition) : Bool :=
  countsUp ((Ddl.createTable definition false).render .sqlite)

/-- Whether a foreign key of the table with the name is read back as the given one. -/
def IsKeyOf (statements : List Ddl) (name : String) (r : Relationship) : Prop :=
  ∃ definition ∈ definitions statements, definition.table.name = name ∧
    ∃ key ∈ definition.foreignKeys, r = key.read

/-- Whether a schema was read back from what was reported after the statements. -/
structure IsSchemaReadFrom (live : Schema) (statements : List Ddl) : Prop where
  tables : live.tables.IsNamed Table.name
  relationships : live.relationships.IsNamed Relationship.name
  shown : ∀ definition ∈ definitions statements, isHidden definition.table.name = false →
    definition.table.name ∈ live.tables.keys
  read : ∀ name old, live.table? name = some old → ∃ definition ∈ definitions statements,
    definition.table.name = name ∧ isHidden name = false ∧
      IsReadFrom old definition.table (statements.filterMap (indexOf? name)) (saysCounting definition)
  keys : ∀ r, r ∈ live.relationships.values ↔ ∃ definition ∈ definitions statements,
    ∃ key ∈ definition.foreignKeys, definition.table.name ∈ live.tables.keys ∧
      key.referenced.table ∈ live.tables.keys ∧ r = key.read

/-- The names that are read are those of the tables that are not SQLite's own. -/
theorem yields_tableNames {statements : List Ddl} (h : Reports q s statements) :
    ∃ names, (tableNames q).Yields s names ∧
      ∀ name, name ∈ names ↔ ∃ definition ∈ definitions statements,
        definition.table.name = name ∧ isHidden name = false := by
  obtain ⟨names, hperm, listed, hlisted, hrows⟩ := h.names
  have hnames : listed.filterMap (textOf? · "name") = names :=
    (filterMap_eq_of_map_eq (g := id) (map_eq_of_forall₂ (List.forall₂_map_right_iff.1 hrows)
      fun row name _ hrow => hrow.textOf? (.head _))).trans (List.map_id names)
  refine ⟨names, hlisted.bind (hnames ▸ .of_pure _), fun name => ?_⟩
  simp only [hperm.mem_iff, List.mem_filter, List.mem_map, Bool.not_eq_true']
  constructor
  · rintro ⟨⟨definition, hmem, hname⟩, hhidden⟩
    exact ⟨definition, hmem, hname, hhidden⟩
  · rintro ⟨definition, hmem, hname, hhidden⟩
    exact ⟨⟨definition, hmem, hname⟩, hhidden⟩

section Creation

variable {statements : List Ddl} (hsimple : CreatesSimple statements)
include hsimple

/-- The foreign keys of a table that was created are read back. -/
theorem yields_foreignKeys_definition (h : Reports q s statements) {definition : TableDefinition}
    (hmem : definition ∈ definitions statements) : ∃ found,
      (foreignKeys q definition.table.name).Yields s found ∧
        ∀ r, r ∈ found ↔ IsKeyOf statements definition.table.name r := by
  obtain ⟨keys, hsame, hanswers⟩ := (h.tables definition hmem).keys
  obtain ⟨found, hyields, hfound⟩ := yields_foreignKeys hanswers fun key hkey =>
    hsimple.keys definition hmem key (hsame.mem_iff.1 hkey)
  refine ⟨found, hyields, fun r => (hfound r).trans ?_⟩
  constructor
  · rintro ⟨key, hkey, rfl⟩
    exact ⟨definition, hmem, rfl, key, hsame.mem_iff.1 hkey, rfl⟩
  · rintro ⟨other, hother, hname, key, hkey, rfl⟩
    obtain rfl := List.inj_on_of_nodup_map hsimple.names hother hmem hname
    exact ⟨key, hsame.mem_iff.2 hkey, rfl⟩

/-- A key that was read belongs to the table of its name. -/
theorem IsKeyOf.referencing {name : String} {r : Relationship} (hr : IsKeyOf statements name r) :
    r.referencing.table = name := by
  obtain ⟨definition, hmem, rfl, key, hkey, rfl⟩ := hr
  exact (hsimple.keys definition hmem key hkey).2

/-- Keys that were read are told apart by their names. -/
theorem IsKeyOf.eq_of_name {first second : String} {r other : Relationship}
    (hr : IsKeyOf statements first r) (hother : IsKeyOf statements second other)
    (hname : other.name = r.name) : other = r := by
  obtain ⟨definition, hmem, _, key, hkey, rfl⟩ := hr
  obtain ⟨another, hmem', _, key', hkey', rfl⟩ := hother
  rw [hsimple.distinct definition hmem key hkey another hmem' key' hkey' hname]

/-- What was read under each name makes up the schema that the statements tell of. -/
theorem isSchemaReadFrom_linkedSchema {names : List String} {read : String → Table}
    {found : String → List Relationship}
    (hshown : ∀ name, name ∈ names ↔ ∃ definition ∈ definitions statements,
      definition.table.name = name ∧ isHidden name = false)
    (hread : ∀ name ∈ names, ∃ definition ∈ definitions statements, definition.table.name = name ∧
      IsReadFrom (read name) definition.table (statements.filterMap (indexOf? name))
        (saysCounting definition))
    (hown : ∀ name ∈ names, (read name).name = name)
    (hfound : ∀ name ∈ names, ∀ r, r ∈ found name ↔ IsKeyOf statements name r) :
    IsSchemaReadFrom (linkedSchema names read found) statements := by
  have hknown : ∀ r, r ∈ knownKeys names read found ↔ r.referencing.table ∈ names ∧
      r.referenced.table ∈ names ∧ r ∈ found r.referencing.table := fun r =>
    mem_knownKeys_iff hown fun name hname key hkey =>
      ((hfound name hname key).1 hkey).referencing hsimple
  have hkey : ∀ r ∈ knownKeys names read found, IsKeyOf statements r.referencing.table r := by
    intro r hr
    obtain ⟨hname, _, hr⟩ := (hknown r).1 hr
    exact (hfound _ hname r).1 hr
  refine {
    tables := isNamed_tables_linkedSchema names read found
    relationships := isNamed_relationships_linkedSchema names read found
    shown := fun definition hmem hhidden => ?_
    read := fun name old hold => ?_
    keys := fun r => ?_ }
  · rw [mem_keys_linkedSchema hown]
    exact (hshown _).2 ⟨definition, hmem, rfl, hhidden⟩
  · have hsame : (linkedSchema names read found).unlinked? name = _ :=
      unlinked?_linkedSchema hown name
    rw [Schema.unlinked?, hold] at hsame
    split at hsame
    · obtain ⟨definition, hmem, hname, hfrom⟩ := hread name ‹_›
      obtain ⟨_, _, _, hhidden⟩ := (hshown name).1 ‹_›
      exact ⟨definition, hmem, hname, hhidden, hfrom.of_unlinked (Option.some.inj hsame)⟩
    · cases hsame
  · rw [relationships_linkedSchema, mem_values_foldl_insert fun r hr other hother =>
      (hkey r hr).eq_of_name hsimple (hkey other hother), hknown]
    simp only [mem_keys_linkedSchema hown]
    constructor
    · rintro ⟨hname, hreferenced, hr⟩
      obtain ⟨definition, hmem, hcreated, key, hkey, rfl⟩ := (hfound _ hname r).1 hr
      exact ⟨definition, hmem, key, hkey, hcreated.symm ▸ hname, hreferenced, rfl⟩
    · rintro ⟨definition, hmem, key, hkey, hname, hreferenced, rfl⟩
      have hkey : IsKeyOf statements definition.table.name key.read :=
        ⟨definition, hmem, rfl, key, hkey, rfl⟩
      rw [hkey.referencing hsimple]
      exact ⟨hname, hreferenced, (hfound _ hname _).2 hkey⟩

/-- A schema of simple tables is read back. -/
theorem yields_introspect (h : Reports q s statements) :
    ∃ live, (introspect q).Yields s live ∧ IsSchemaReadFrom live statements := by
  obtain ⟨names, hnames, hshown⟩ := yields_tableNames h
  -- The table and the foreign keys that are read under each name.
  have htable : ∀ name, ∃ old, name ∈ names → (table? q name).Yields s (some old) ∧
      ∃ definition ∈ definitions statements, definition.table.name = name ∧
        IsReadFrom old definition.table (statements.filterMap (indexOf? name))
          (saysCounting definition) := by
    intro name
    by_cases hname : name ∈ names
    · obtain ⟨definition, hmem, rfl, _⟩ := (hshown name).1 hname
      obtain ⟨old, hyields, hread⟩ :=
        yields_table? (h.tables definition hmem) (hsimple.tables definition hmem)
      exact ⟨old, fun _ => ⟨hyields, definition, hmem, rfl, hread⟩⟩
    · exact ⟨{ name }, fun hmem => absurd hmem hname⟩
  have hkeys : ∀ name, ∃ found, name ∈ names → (foreignKeys q name).Yields s found ∧
      ∀ r, r ∈ found ↔ IsKeyOf statements name r := by
    intro name
    by_cases hname : name ∈ names
    · obtain ⟨definition, hmem, rfl, _⟩ := (hshown name).1 hname
      obtain ⟨found, hfound⟩ := yields_foreignKeys_definition hsimple h hmem
      exact ⟨found, fun _ => hfound⟩
    · exact ⟨[], fun hmem => absurd hmem hname⟩
  choose read hread using htable
  choose found hfound using hkeys
  have hown : ∀ name ∈ names, (read name).name = name := fun name hname => by
    obtain ⟨_, _, _, hcreated, hfrom⟩ := hread name hname
    exact hfrom.name.trans hcreated
  refine ⟨linkedSchema names read found, ?_, ?_⟩
  · exact yields_linkedSchema hown hnames (fun name hname => (hread name hname).1)
      fun name hname => (hfound name hname).1
  · exact isSchemaReadFrom_linkedSchema hsimple hshown (fun name hname => (hread name hname).2) hown
      fun name hname => (hfound name hname).2

end Creation

end Sqlite

end EntitySql
