import Mathlib.Data.List.Nodup
import EntitySql.Proofs.Sqlite.CatalogSchema
/-!
# The order of rows in the catalog

The columns of indexes and foreign keys are told by rows that are numbered, and these may come in any order: the
schema stays the same, and a relationship pairs the columns that one row tells, or those of the primary key where
the rows tell no target (`Sqlite.Catalog.yields_of_reordered`).
-/

namespace EntitySql.Sqlite

/-! ## Sorting and grouping -/

section Rows

variable {column : String} {rows rows' : List Row}

theorem sortRows_perm (column : String) (rows : List Row) : (sortRows column rows).Perm rows :=
  List.mergeSort_perm _ _

theorem pairwise_sortRows (column : String) (rows : List Row) :
    (sortRows column rows).Pairwise fun a b => numberOf a column ≤ numberOf b column := by
  have hsorted : (sortRows column rows).Pairwise fun a b =>
      decide (numberOf a column ≤ numberOf b column) = true :=
    List.pairwise_mergeSort (fun a b c hab hbc => by simp only [decide_eq_true_eq] at *; omega)
      (fun a b => by simp only [Bool.or_eq_true, decide_eq_true_eq]; omega) rows
  exact hsorted.imp of_decide_eq_true

/-- Rows with different numbers are sorted strictly. -/
theorem pairwise_lt_sortRows (hdistinct : (rows.map (numberOf · column)).Nodup) :
    (sortRows column rows).Pairwise fun a b => numberOf a column < numberOf b column := by
  have hnodup : ((sortRows column rows).map (numberOf · column)).Nodup :=
    ((sortRows_perm column rows).map _).nodup_iff.2 hdistinct
  exact ((pairwise_sortRows column rows).and (List.pairwise_map.1 hnodup)).imp fun h =>
    Int.lt_iff_le_and_ne.2 h

/-- Rows with different numbers are sorted to one list, whatever order they come in. -/
theorem sortRows_eq_of_perm (h : rows'.Perm rows) (hdistinct : (rows.map (numberOf · column)).Nodup) :
    sortRows column rows' = sortRows column rows := by
  have hperm : (sortRows column rows').Perm (sortRows column rows) :=
    (sortRows_perm column rows').trans (h.trans (sortRows_perm column rows).symm)
  refine List.Perm.eq_of_pairwise (fun a b ha hb hab hba => ?_) (pairwise_sortRows column rows')
    (pairwise_sortRows column rows) hperm
  have hb : b ∈ rows := (sortRows_perm column rows).mem_iff.1 hb
  have ha : a ∈ rows := h.mem_iff.1 ((sortRows_perm column rows').mem_iff.1 ha)
  exact List.inj_on_of_nodup_map hdistinct ha hb (Int.le_antisymm hab hba)

/-- Rows in another order have the same groups, each in another order. -/
theorem filterMap_groupRows_eq_of_perm {α : Type} {f : List Row → Option α} (h : rows'.Perm rows)
    (hf : ∀ n group, group.Perm (rows.filter fun row => numberOf row column = n) →
      f group = f (rows.filter fun row => numberOf row column = n)) :
    (groupRows column rows').filterMap f = (groupRows column rows).filterMap f := by
  have hnumbers : groupNumbers column rows' = groupNumbers column rows :=
    congrArg List.eraseDups (List.Perm.eq_of_pairwise (fun _ _ _ _ => Int.le_antisymm)
      (List.pairwise_mergeSort' (· ≤ ·) _) (List.pairwise_mergeSort' (· ≤ ·) _)
      ((List.mergeSort_perm _ _).trans ((h.map _).trans (List.mergeSort_perm _ _).symm)))
  rw [groupRows_eq, groupRows_eq, hnumbers, List.filterMap_map, List.filterMap_map]
  exact List.filterMap_congr fun n _ => hf n _ (h.filter _)

/-- A group holds all rows of a number. -/
theorem mem_groupRows_iff {group : List Row} : group ∈ groupRows column rows ↔
    ∃ n ∈ rows.map (numberOf · column), group = rows.filter fun row => numberOf row column = n := by
  simp only [groupRows_eq, List.mem_map (f := fun n : Int => rows.filter _), mem_groupNumbers_iff,
    eq_comm]

end Rows

/-! ## Rows of foreign keys -/

/-- Whether rows tell the columns of foreign keys: no place of a key is told twice, a column is told in every row,
and its target in every row of a key or in none. -/
structure TellsKeys (rows : List Row) : Prop where
  distinct : (rows.map fun row => (numberOf row "id", numberOf row "seq")).Nodup
  own : ∀ row ∈ rows, (textOf? row "from").isSome = true
  target : ∀ row ∈ rows, ∀ other ∈ rows, numberOf row "id" = numberOf other "id" →
    (textOf? row "to").isSome = (textOf? other "to").isSome

/-- Whether these are the rows of one key, in order of their places. -/
structure IsKeyAmong (parts rows : List Row) : Prop where
  nonempty : parts ≠ []
  all : ∃ id, parts.Perm (rows.filter fun row => numberOf row "id" = id)
  ascending : parts.Pairwise fun a b => numberOf a "seq" < numberOf b "seq"

/-- The places in a key are told apart. -/
theorem TellsKeys.nodup_seq {rows : List Row} (h : TellsKeys rows) (id : Int) :
    ((rows.filter fun row => numberOf row "id" = id).map (numberOf · "seq")).Nodup := by
  refine ((List.Nodup.of_map _ h.distinct).filter _).map_on fun a ha b hb hseq => ?_
  obtain ⟨ha, hid⟩ := List.mem_filter.1 ha
  obtain ⟨hb, hid'⟩ := List.mem_filter.1 hb
  refine List.inj_on_of_nodup_map h.distinct ha hb (Prod.ext ?_ hseq)
  exact (of_decide_eq_true hid).trans (of_decide_eq_true hid').symm

section IsKeyAmong

variable {parts rows : List Row} (hkey : IsKeyAmong parts rows)
include hkey

theorem IsKeyAmong.mem {row : Row} (hrow : row ∈ parts) : row ∈ rows := by
  obtain ⟨id, hperm⟩ := hkey.all
  exact (List.mem_filter.1 (hperm.mem_iff.1 hrow)).1

variable (h : TellsKeys rows)
include h

/-- The columns are told one by one. -/
theorem IsKeyAmong.map_own :
    parts.map (textOf? · "from") = (parts.filterMap (textOf? · "from")).map some := by
  rw [List.map_filterMap_some_eq_filter_map_isSome, List.filter_eq_self.2]
  exact List.forall_mem_map.2 fun row hrow => h.own row (hkey.mem hrow)

/-- The targets of the columns are told one by one, or none is. -/
theorem IsKeyAmong.map_target :
    parts.map (textOf? · "to") = (parts.filterMap (textOf? · "to")).map some ∨
      ∀ row ∈ parts, textOf? row "to" = none := by
  obtain ⟨id, hperm⟩ := hkey.all
  have hid : ∀ row ∈ parts, numberOf row "id" = id := fun row hrow =>
    of_decide_eq_true (List.mem_filter.1 (hperm.mem_iff.1 hrow)).2
  have hsame : ∀ row ∈ parts, ∀ other ∈ parts,
      (textOf? row "to").isSome = (textOf? other "to").isSome := fun row hrow other hother =>
    h.target row (hkey.mem hrow) other (hkey.mem hother) ((hid row hrow).trans (hid other hother).symm)
  by_cases htold : ∃ row ∈ parts, (textOf? row "to").isSome = true
  · obtain ⟨row, hrow, htold⟩ := htold
    left
    rw [List.map_filterMap_some_eq_filter_map_isSome, List.filter_eq_self.2]
    exact List.forall_mem_map.2 fun other hother => (hsame other hother row hrow).trans htold
  · right
    intro row hrow
    rw [← Option.not_isSome_iff_eq_none]
    exact fun hsome => htold ⟨row, hrow, hsome⟩

end IsKeyAmong

/-! ## Rows of a primary key -/

/-- Whether these are the names of the columns that belong to the primary key, in order of their places in it. -/
def IsKeyOrder (names : List String) (rows : List Row) : Prop :=
  ∃ parts : List Row, parts.Perm (rows.filter fun row => 0 < numberOf row "pk") ∧
    parts.Pairwise (fun a b => numberOf a "pk" ≤ numberOf b "pk") ∧ names = parts.map (textOf · "name")

/-- Whether a place and a name come before others: names count where the places are the same. -/
def comesBefore (a b : Int × String) : Bool := a.1 < b.1 || (a.1 = b.1 && a.2 ≤ b.2)

theorem comesBefore_iff {a b : Int × String} :
    comesBefore a b = true ↔ a.1 < b.1 ∨ a.1 = b.1 ∧ a.2 ≤ b.2 := by
  simp only [comesBefore, Bool.or_eq_true, Bool.and_eq_true, decide_eq_true_eq]

theorem comesBefore_trans {a b c : Int × String} (hab : comesBefore a b = true) (hbc : comesBefore b c = true) :
    comesBefore a c = true := by
  rw [comesBefore_iff] at *
  rcases hab with hab | ⟨hab, hname⟩
  · exact .inl (by omega)
  · rcases hbc with hbc | ⟨hbc, hname'⟩
    · exact .inl (by omega)
    · exact .inr ⟨hab.trans hbc, String.le_trans hname hname'⟩

theorem comesBefore_total (a b : Int × String) : (comesBefore a b || comesBefore b a) = true := by
  rw [Bool.or_eq_true, comesBefore_iff, comesBefore_iff]
  rcases Int.lt_trichotomy a.1 b.1 with hlt | heq | hgt
  · exact .inl (.inl hlt)
  · exact (String.le_total a.2 b.2).imp (fun hle => .inr ⟨heq, hle⟩) fun hle => .inr ⟨heq.symm, hle⟩
  · exact .inr (.inl hgt)

/-- Rows in order of the places that they tell in the primary key. -/
def sortParts (rows : List Row) : List Row :=
  rows.mergeSort fun a b => comesBefore (keyPart a) (keyPart b)

theorem pairwise_sortParts (rows : List Row) :
    (sortParts rows).Pairwise fun a b => comesBefore (keyPart a) (keyPart b) = true := by
  apply List.pairwise_mergeSort
  · exact fun _ _ _ => comesBefore_trans
  · exact fun a b => comesBefore_total (keyPart a) (keyPart b)

theorem map_keyPart_sortParts (rows : List Row) :
    (sortParts rows).map keyPart = (rows.map keyPart).mergeSort comesBefore := by
  apply List.map_mergeSort
  exact fun _ _ _ _ => rfl

theorem isKeyOrder_primaryKeyOf (rows : List Row) : IsKeyOrder (primaryKeyOf rows) rows := by
  have hsorted := pairwise_sortParts (rows.filter fun row => 0 < numberOf row "pk")
  refine ⟨sortParts _, List.mergeSort_perm _ _, hsorted.imp fun hab => ?_, ?_⟩
  · rcases comesBefore_iff.1 hab with hlt | ⟨heq, _⟩
    · exact Int.le_of_lt hlt
    · exact Int.le_of_eq heq
  · exact (congrArg (List.map Prod.snd) (map_keyPart_sortParts _).symm).trans List.map_map

/-! ## Reordered answers -/

namespace Catalog

/-- Whether the rows of each index and of each foreign key are told apart by their numbers. -/
structure IsNumbered (c : Catalog) : Prop where
  indexes : ∀ index, ((c.indexColumns index).map (numberOf · "seqno")).Nodup
  keys : ∀ table, TellsKeys (c.keyColumns table)

/-- Whether the answers are the same but for the order of the rows that tell the columns of indexes and of
foreign keys. -/
structure Reordered (c c' : Catalog) : Prop where
  names : c'.names = c.names
  definition : c'.definition = c.definition
  columns : c'.columns = c.columns
  indexes : c'.indexes = c.indexes
  indexColumns : ∀ index, (c'.indexColumns index).Perm (c.indexColumns index)
  keyColumns : ∀ table, (c'.keyColumns table).Perm (c.keyColumns table)

section Reordered

variable {c c' : Catalog} (hc : c.IsNumbered) (h : c.Reordered c')
include hc h

theorem Reordered.columnsOfIndex : c'.columnsOfIndex = c.columnsOfIndex := by
  funext index
  rw [Catalog.columnsOfIndex, Catalog.columnsOfIndex,
    sortRows_eq_of_perm (h.indexColumns index) (hc.indexes index)]

theorem Reordered.table? : c'.table? = c.table? := by
  funext name
  rw [Catalog.table?, Catalog.table?, h.definition, h.columns, h.indexes, h.columnsOfIndex hc]

theorem Reordered.foreignKey? : c'.foreignKey? = c.foreignKey? := by
  funext table group
  simp only [Catalog.foreignKey?, foreignKey, primaryKey, h.table? hc]

theorem Reordered.foreignKeys : c'.foreignKeys = c.foreignKeys := by
  funext table
  rw [Catalog.foreignKeys, Catalog.foreignKeys, h.foreignKey? hc]
  refine filterMap_groupRows_eq_of_perm (h.keyColumns table) fun id group hgroup => ?_
  rw [Catalog.foreignKey?, Catalog.foreignKey?, sortRows_eq_of_perm hgroup ((hc.keys table).nodup_seq id)]

theorem Reordered.schema : c'.schema = c.schema := by
  have hlisted : c'.listed = c.listed := by rw [listed, listed, h.names]
  have hshown : c'.shown = c.shown := by rw [shown, shown, hlisted, h.table? hc]
  have hread : c'.read = c.read := by
    funext name
    rw [read, read, h.table? hc]
  rw [Catalog.schema, Catalog.schema, hshown, hread, h.foreignKeys hc]

end Reordered

/-! ## Paired columns -/

/-- Whether the relationship is the one that the rows of a foreign key tell: each of its columns is told by a row, in
order, and is paired with the target that the row tells. Where no target is told it is paired with the primary
key of the table that is referred to, in key order. -/
structure Pairs (c : Catalog) (schema : Schema) (r : Relationship) (parts : List Row) : Prop where
  key : IsKeyAmong parts (c.keyColumns r.referencing.table)
  own : parts.map (textOf? · "from") = r.referencing.columns.map some
  table : ∀ first ∈ parts.head?, textOf first "table" = r.referenced.table
  target : parts.map (textOf? · "to") = r.referenced.columns.map some ∨
    (∀ row ∈ parts, textOf? row "to" = none) ∧
      ∃ t, schema.table? r.referenced.table = some t ∧ r.referenced.columns = t.primaryKey ∧
        IsKeyOrder t.primaryKey (c.columns r.referenced.table)

variable {c : Catalog}

/-- A foreign key is read for each number that rows have. -/
theorem mem_foreignKeys_iff {table : String} {r : Relationship} : r ∈ c.foreignKeys table ↔
    ∃ id ∈ (c.keyColumns table).map (numberOf · "id"), ∃ first rest,
      sortRows "seq" ((c.keyColumns table).filter fun row => numberOf row "id" = id) = first :: rest ∧
        r = c.foreignKey table first (first :: rest) := by
  have hread : ∀ group, c.foreignKey? table group = some r ↔ ∃ first rest,
      sortRows "seq" group = first :: rest ∧ r = c.foreignKey table first (first :: rest) := by
    intro group
    rw [foreignKey?]
    cases sortRows "seq" group with
    | nil => simp
    | cons first rest => simp [eq_comm]
  simp only [foreignKeys, List.mem_filterMap, mem_groupRows_iff, hread]
  constructor
  · rintro ⟨_, ⟨id, hid, rfl⟩, hr⟩
    exact ⟨id, hid, hr⟩
  · rintro ⟨id, hid, hr⟩
    exact ⟨_, ⟨id, hid, rfl⟩, hr⟩

/-- A foreign key that is read is told by the rows of one key. -/
theorem exists_parts_of_mem_foreignKeys {table : String} (hrows : TellsKeys (c.keyColumns table))
    {r : Relationship} (h : r ∈ c.foreignKeys table) :
    ∃ first rest, IsKeyAmong (first :: rest) (c.keyColumns table) ∧
      r = c.foreignKey table first (first :: rest) := by
  obtain ⟨id, _, first, rest, hsorted, hr⟩ := mem_foreignKeys_iff.1 h
  refine ⟨first, rest, ⟨List.cons_ne_nil _ _, ⟨id, ?_⟩, ?_⟩, hr⟩
  · exact hsorted ▸ sortRows_perm "seq" _
  · exact hsorted ▸ pairwise_lt_sortRows (hrows.nodup_seq id)

theorem referencing_of_mem_foreignKeys {table : String} {r : Relationship} (h : r ∈ c.foreignKeys table) :
    r.referencing.table = table := by
  obtain ⟨_, _, _, _, _, rfl⟩ := mem_foreignKeys_iff.1 h
  rfl

/-- The foreign keys that are added are those between tables that exist. -/
theorem mem_knownKeys {r : Relationship} : r ∈ knownKeys c.shown c.read c.foreignKeys ↔
    r.referencing.table ∈ c.shown ∧ r.referenced.table ∈ c.shown ∧ r ∈ c.foreignKeys r.referencing.table :=
  mem_knownKeys_iff (fun name _ => c.name_read name) fun _ _ _ => referencing_of_mem_foreignKeys

/-- The relationships are foreign keys between tables that exist. -/
theorem mem_of_mem_relationships {r : Relationship} (h : r ∈ c.schema.relationships.values) :
    r.referenced.table ∈ c.shown ∧ r ∈ c.foreignKeys r.referencing.table := by
  have hknown : r ∈ knownKeys c.shown c.read c.foreignKeys := by
    rw [Catalog.schema, relationships_linkedSchema] at h
    refine List.foldlRecOn (motive := fun a : Assoc Relationship =>
      ∀ r ∈ a.values, r ∈ knownKeys c.shown c.read c.foreignKeys) _ _ ?_ ?_ r h
    · exact fun r hr => absurd hr List.not_mem_nil
    · exact fun a ha key hkey => Assoc.forall_mem_values_insert ha hkey
  exact (mem_knownKeys.1 hknown).2

/-- Every foreign key between tables that exist is read. -/
theorem mem_keys_relationships {table : String} (hrows : TellsKeys (c.keyColumns table)) {first : Row}
    {rest : List Row} (hkey : IsKeyAmong (first :: rest) (c.keyColumns table)) (htable : table ∈ c.shown)
    (htarget : textOf first "table" ∈ c.shown) :
    Schema.foreignKeyName table ((first :: rest).filterMap (textOf? · "from")) ∈ c.schema.relationships.keys := by
  obtain ⟨id, hperm⟩ := hkey.all
  have hfirst : first ∈ c.keyColumns table ∧ decide (numberOf first "id" = id) = true :=
    List.mem_filter.1 (hperm.mem_iff.1 (.head _))
  have hsorted : sortRows "seq" ((c.keyColumns table).filter fun row => numberOf row "id" = id) =
      first :: rest := by
    rw [← sortRows_eq_of_perm hperm (hrows.nodup_seq id)]
    exact List.mergeSort_of_pairwise (hkey.ascending.imp fun h => decide_eq_true (Int.le_of_lt h))
  have hid : id ∈ (c.keyColumns table).map (numberOf · "id") :=
    List.mem_map.2 ⟨first, hfirst.1, of_decide_eq_true hfirst.2⟩
  have hmem : c.foreignKey table first (first :: rest) ∈ c.foreignKeys table :=
    mem_foreignKeys_iff.2 ⟨id, hid, first, rest, hsorted, rfl⟩
  rw [Catalog.schema, relationships_linkedSchema, Assoc.mem_keys_foldl_insert]
  exact .inr (List.mem_map.2
    ⟨c.foreignKey table first (first :: rest), mem_knownKeys.2 ⟨htable, htarget, hmem⟩, rfl⟩)

/-- A table of the schema has the primary key that its rows tell. -/
theorem exists_table?_schema {name : String} (h : name ∈ c.shown) :
    ∃ t, c.schema.table? name = some t ∧ t.primaryKey = c.primaryKey name ∧
      t.primaryKey = primaryKeyOf (c.columns name) := by
  have hunlinked : c.schema.unlinked? name = some (c.read name).unlinked :=
    (unlinked?_linkedSchema (fun name _ => c.name_read name) name).trans (if_pos h)
  obtain ⟨t, ht, hsame⟩ := Option.map_eq_some_iff.1 hunlinked
  have hkey : t.unlinked.primaryKey = (c.read name).unlinked.primaryKey := congrArg Table.primaryKey hsame
  change t.primaryKey = (c.read name).primaryKey at hkey
  obtain ⟨told, htold⟩ := Option.isSome_iff_exists.1 (List.mem_filter.1 h).2
  rw [read, htold, Option.getD_some] at hkey
  refine ⟨t, ht, ?_, hkey.trans (primaryKey_of_table? htold)⟩
  rw [hkey, primaryKey, htold]
  rfl

/-- Each relationship pairs what the rows of one key tell. -/
theorem exists_pairs (hc : c.IsNumbered) {r : Relationship} (h : r ∈ c.schema.relationships.values) :
    ∃ parts, c.Pairs c.schema r parts := by
  obtain ⟨hshown, hmem⟩ := mem_of_mem_relationships h
  have hrows := hc.keys r.referencing.table
  obtain ⟨first, rest, hkey, hr⟩ := exists_parts_of_mem_foreignKeys hrows hmem
  have hcolumns : r.referencing.columns = (first :: rest).filterMap (textOf? · "from") :=
    congrArg (·.referencing.columns) hr
  have htable : r.referenced.table = textOf first "table" := congrArg (·.referenced.table) hr
  have htargets : r.referenced.columns =
      if ((first :: rest).filterMap (textOf? · "to")).isEmpty then c.primaryKey r.referenced.table
      else (first :: rest).filterMap (textOf? · "to") := by
    rw [htable]
    exact congrArg (·.referenced.columns) hr
  refine ⟨first :: rest, hkey, hcolumns ▸ hkey.map_own hrows, ?_, ?_⟩
  · rintro _ ⟨⟩
    exact htable.symm
  · rcases hkey.map_target hrows with htold | hnone
    · have hnonempty : ((first :: rest).filterMap (textOf? · "to")).isEmpty = false := by
        rw [List.isEmpty_eq_false_iff]
        intro hnil
        rw [hnil] at htold
        cases htold
      rw [hnonempty, if_neg Bool.false_ne_true] at htargets
      exact .inl (htargets ▸ htold)
    · have hempty : ((first :: rest).filterMap (textOf? · "to")).isEmpty = true := by
        rw [List.isEmpty_iff, List.filterMap_eq_nil_iff]
        exact hnone
      rw [hempty, if_pos rfl] at htargets
      obtain ⟨t, ht, hprimary, horder⟩ := exists_table?_schema hshown
      exact .inr ⟨hnone, t, ht, htargets.trans hprimary.symm, horder ▸ isKeyOrder_primaryKeyOf _⟩

/-! ## Any order -/

/-- In whatever order the columns of indexes and foreign keys are told, one schema is read, and each of its
relationships pairs the columns that one row tells. -/
theorem yields_of_reordered {σ τ : Type} {q : Querier σ} {s : σ} {q' : Querier τ} {s' : τ} {c c' : Catalog}
    (hc : c.IsNumbered) (h : c.Reordered c') (hq : c.IsToldBy q s) (hq' : c'.IsToldBy q' s') :
    ∃ schema, (introspect q).Yields s schema ∧ (introspect q').Yields s' schema ∧
      ∀ r ∈ schema.relationships.values, ∃ parts, c.Pairs schema r parts :=
  ⟨c.schema, yields_schema hq, h.schema hc ▸ yields_schema hq', fun _ => exists_pairs hc⟩

/-- A row that tells a column of a foreign key that refers to seats. -/
def seatRow (id seq : Int) (column : String) (target? : Option String) : Row :=
  Assoc.ofPairs [("id", .int id), ("seq", .int seq), ("table", .text "seat"), ("from", .text column),
    ("to", (target?.map .text).getD .null)]

/-- What is told of seats, whose primary key is their row and their place in it, and of tickets, which refer to
them and have an index. -/
def ticketCatalog (keyRows indexRows : List Row) : Catalog where
  names := [Assoc.ofPairs [("name", .text "seat")], Assoc.ofPairs [("name", .text "ticket")]]
  definition := fun _ => [Assoc.ofPairs [("sql", .null)]]
  columns := fun table =>
    if table = "seat" then
      [Assoc.ofPairs [("name", .text "place"), ("type", .text "INTEGER"), ("pk", .int 2)],
        Assoc.ofPairs [("name", .text "row"), ("type", .text "TEXT"), ("pk", .int 1)]]
    else []
  indexes := fun table =>
    if table = "ticket" then [Assoc.ofPairs [("name", .text "held"), ("origin", .text "c")]] else []
  indexColumns := fun index => if index = "held" then indexRows else []
  keyColumns := fun table => if table = "ticket" then keyRows else []

/-- One key tells its targets and the other does not, and the rows of both are told by turns. -/
theorem yields_of_reordered_interleaved :
    let keyRows := [seatRow 1 1 "soldPlace" none, seatRow 0 0 "heldPlace" (some "place"),
      seatRow 1 0 "soldRow" none, seatRow 0 1 "heldRow" (some "row")]
    let indexRows := [Assoc.ofPairs [("seqno", .int 1), ("name", .text "heldPlace")],
      Assoc.ofPairs [("seqno", .int 0), ("name", .text "heldRow")]]
    let c := ticketCatalog keyRows indexRows
    let c' := ticketCatalog keyRows.reverse indexRows.reverse
    c.IsNumbered ∧ c.Reordered c' ∧ c.IsToldBy c.querier () ∧ c'.IsToldBy c'.querier () ∧
      ∃ schema, (introspect c.querier).Yields () schema ∧ (introspect c'.querier).Yields () schema ∧
        "fk_ticket_heldPlace_heldRow" ∈ schema.relationships.keys ∧
        "fk_ticket_soldRow_soldPlace" ∈ schema.relationships.keys ∧
        ∀ r ∈ schema.relationships.values, ∃ parts, c.Pairs schema r parts := by
  intro keyRows indexRows c c'
  have hkeys : TellsKeys keyRows := ⟨by decide, by decide, by decide⟩
  have hc : c.IsNumbered := by
    refine ⟨fun index => ?_, fun table => ?_⟩
    · change ((if index = "held" then indexRows else []).map (numberOf · "seqno")).Nodup
      split
      · decide
      · exact List.nodup_nil
    · change TellsKeys (if table = "ticket" then keyRows else [])
      split
      · exact hkeys
      · exact ⟨List.nodup_nil, by decide, by decide⟩
  have h : c.Reordered c' := by
    refine ⟨rfl, rfl, rfl, rfl, fun index => ?_, fun table => ?_⟩
    · change (if index = "held" then indexRows.reverse else []).Perm (if index = "held" then indexRows else [])
      split
      · exact List.reverse_perm _
      · exact .refl _
    · change (if table = "ticket" then keyRows.reverse else []).Perm (if table = "ticket" then keyRows else [])
      split
      · exact List.reverse_perm _
      · exact .refl _
  obtain ⟨schema, hread, hread', hpairs⟩ := yields_of_reordered hc h c.isToldBy_querier c'.isToldBy_querier
  have hschema : schema = c.schema := by
    have hsame := hread.symm.trans (yields_schema c.isToldBy_querier)
    exact Except.ok.inj (Prod.ext_iff.1 hsame).1
  have hseat : "seat" ∈ c.shown := List.mem_filter.2 ⟨by decide, rfl⟩
  have hticket : "ticket" ∈ c.shown := List.mem_filter.2 ⟨by decide, rfl⟩
  have hheld : IsKeyAmong [seatRow 0 0 "heldPlace" (some "place"), seatRow 0 1 "heldRow" (some "row")] keyRows :=
    ⟨List.cons_ne_nil _ _, ⟨0, .refl _⟩, by decide⟩
  have hsold : IsKeyAmong [seatRow 1 0 "soldRow" none, seatRow 1 1 "soldPlace" none] keyRows :=
    ⟨List.cons_ne_nil _ _, ⟨1, .swap _ _ _⟩, by decide⟩
  have hfirst := mem_keys_relationships (c := c) (hc.keys "ticket") hheld hticket hseat
  have hsecond := mem_keys_relationships (c := c) (hc.keys "ticket") hsold hticket hseat
  exact ⟨hc, h, c.isToldBy_querier, c'.isToldBy_querier, schema, hread, hread', hschema ▸ hfirst,
    hschema ▸ hsecond, hpairs⟩

end Catalog

end EntitySql.Sqlite
