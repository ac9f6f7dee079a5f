import Mathlib.Data.List.Nodup
import EntitySql.Proofs.Schema.Editing
import EntitySql.Proofs.Sqlite.Report
/-!
# A table is read back

What is reported of a table is read back as the table, but for what is not told
(`Sqlite.yields_table?`): a comment, the methods of indexes, and whether the key counts up, which is looked for
in the text of the definition. The table has to be simple (`Table.IsSimple`), as those of entities are.
-/

namespace EntitySql

/-- What is told of the columns of an entity can be read back: there is at most one column in the primary key,
which then is neither null nor unique beside that, no column has a default, and types are as they are stored. -/
structure Table.IsSimple (t : Table) : Prop where
  named : t.columns.IsNamed Column.name
  single : t.hasCompositeKey = false
  key : ∀ c ∈ t.columns.values, c.isPrimaryKey = true → c.nullable = false ∧ c.isUnique = false
  alone : ∀ c ∈ t.columns.values, ∀ other ∈ t.columns.values,
    c.isPrimaryKey = true → other.isPrimaryKey = true → c = other
  counting : ∀ c ∈ t.columns.values, c.isAutoIncrement = true →
    c.isPrimaryKey = true ∧ c.type.category = .integer
  defaults : ∀ c ∈ t.columns.values, c.default? = none
  stored : ∀ c ∈ t.columns.values, ColumnType.ofSql (c.type.toSql .sqlite) .sqlite = c.type

namespace Sqlite

section Rows

variable {row : Row} {cells : Cells} (h : Holds row cells) {column : String}

include h

theorem Holds.textOf? {text : String} (hmem : (column, .text text) ∈ cells) :
    textOf? row column = some text := by
  rw [Sqlite.textOf?, h _ hmem]
  rfl

theorem Holds.textOf {text : String} (hmem : (column, .text text) ∈ cells) :
    textOf row column = text := by
  rw [Sqlite.textOf, h.textOf? hmem]
  rfl

theorem Holds.textOf?_null (hmem : (column, .null) ∈ cells) : Sqlite.textOf? row column = none := by
  rw [Sqlite.textOf?, h _ hmem]
  rfl

theorem Holds.numberOf {n : Int} (hmem : (column, .int n) ∈ cells) : numberOf row column = n := by
  rw [Sqlite.numberOf, h _ hmem]
  rfl

end Rows

/-- Rows and what they hold are read in the same way. -/
theorem map_eq_of_forall₂ {α β γ : Type} {R : α → β → Prop} {f : α → γ} {g : β → γ} {as : List α}
    {bs : List β} (h : List.Forall₂ R as bs) (hread : ∀ a, ∀ b ∈ bs, R a b → f a = g b) :
    as.map f = bs.map g := by
  induction h with
  | nil => rfl
  | cons hab _ ih =>
    rw [List.map_cons, List.map_cons, hread _ _ (.head _) hab, ih fun a b hb => hread a b (.tail _ hb)]

/-- The place of a column in the primary key and its name. -/
def keyPart (row : Row) : Int × String := (numberOf row "pk", textOf row "name")

end Sqlite

/-! ## Columns -/

namespace Table

variable (t : Table)

/-- A column as it is told by the rows of its table. -/
def toldColumn (c : Column) : Column :=
  { name := c.name
    type := ColumnType.ofSql (t.declaredType c) .sqlite
    nullable := c.nullable
    isPrimaryKey := c.isPrimaryKey }

/-- A column as it is read back where the text of the definition may say that the key counts up. -/
def readColumn (counts : Bool) (c : Column) : Column :=
  { t.toldColumn c with
    table := t.name
    isAutoIncrement := c.isPrimaryKey && counts
    isUnique := c.isUnique }

section ReadColumn

variable (counts : Bool) (c : Column)

@[simp]
theorem type_readColumn :
    (t.readColumn counts c).type = ColumnType.ofSql (t.declaredType c) .sqlite := rfl

@[simp]
theorem nullable_readColumn : (t.readColumn counts c).nullable = c.nullable := rfl

@[simp]
theorem isAutoIncrement_readColumn :
    (t.readColumn counts c).isAutoIncrement = (c.isPrimaryKey && counts) := rfl

@[simp]
theorem isUnique_readColumn : (t.readColumn counts c).isUnique = c.isUnique := rfl

@[simp]
theorem default?_readColumn : (t.readColumn counts c).default? = none := rfl

end ReadColumn

end Table

namespace Table.IsSimple

variable {t : Table} (h : t.IsSimple)

include h

theorem holdsKey (c : Column) : t.holdsKey c = c.isPrimaryKey := by
  rw [Table.holdsKey, h.single, Bool.not_false, Bool.and_true]

theorem keyPosition (c : Column) : t.keyPosition c = if c.isPrimaryKey then 1 else 0 := by
  rw [Table.keyPosition, h.single]
  rfl

/-- The type of a column is declared, unless it is that of a key that counts up. -/
theorem ofSql_declaredType {c : Column} (hc : c ∈ t.columns.values) :
    ColumnType.ofSql (t.declaredType c) .sqlite =
      if c.isAutoIncrement then .integer .regular else c.type := by
  have hinteger : ColumnType.ofSql "INTEGER" .sqlite = .integer .regular := by decide +kernel
  rw [Table.declaredType, h.holdsKey]
  by_cases hauto : c.isAutoIncrement = true
  · rw [(h.counting c hc hauto).1, hauto, Bool.and_true, if_pos rfl, if_pos rfl, hinteger]
  · rw [Bool.not_eq_true] at hauto
    rw [hauto, Bool.false_and, if_neg Bool.false_ne_true, if_neg Bool.false_ne_true, h.stored c hc]

theorem columnOf_eq {row : Row} {c : Column} (hc : c ∈ t.columns.values)
    (hrow : Sqlite.Holds row (Sqlite.columnCells t c)) : Sqlite.columnOf row = t.toldColumn c := by
  have hname : Sqlite.textOf row "name" = c.name := hrow.textOf (by simp [Sqlite.columnCells])
  have htype : Sqlite.textOf row "type" = t.declaredType c := hrow.textOf (by simp [Sqlite.columnCells])
  have hnotnull : Sqlite.numberOf row "notnull" = if t.declaresNotNull c then 1 else 0 :=
    hrow.numberOf (by simp [Sqlite.columnCells, Sqlite.flag])
  have hdefault : Sqlite.textOf? row "dflt_value" = none :=
    hrow.textOf?_null (by simp [Sqlite.columnCells])
  have hkey : Sqlite.numberOf row "pk" = (t.keyPosition c : Int) :=
    hrow.numberOf (by simp [Sqlite.columnCells])
  have hnull : c.isPrimaryKey = true → c.nullable = false := fun hpk => (h.key c hc hpk).1
  rw [h.keyPosition] at hkey
  rw [Table.declaresNotNull, h.holdsKey] at hnotnull
  simp only [Sqlite.columnOf, hname, htype, hnotnull, hdefault, hkey, Table.toldColumn]
  cases hpk : c.isPrimaryKey <;> cases hnullable : c.nullable <;> simp_all

/-- There is at most one column in the primary key. -/
theorem keyColumns_eq :
    t.columns.values.filter (·.isPrimaryKey) = [] ∨
      ∃ c ∈ t.columns.values, t.columns.values.filter (·.isPrimaryKey) = [c] := by
  have hnodup : (t.columns.values.filter (·.isPrimaryKey)).Nodup :=
    (List.Nodup.of_map _ h.named.nodup).filter _
  cases hfilter : t.columns.values.filter (·.isPrimaryKey) with
  | nil => exact .inl rfl
  | cons c rest =>
    have hmem : ∀ other ∈ c :: rest, other ∈ t.columns.values ∧ other.isPrimaryKey = true := by
      intro other hother
      exact List.mem_filter.1 (hfilter ▸ hother)
    have hc := hmem c (.head rest)
    cases rest with
    | nil => exact .inr ⟨c, hc.1, rfl⟩
    | cons other rest =>
      obtain ⟨hother, hkey⟩ := hmem other (.tail _ (.head rest))
      obtain rfl := h.alone c hc.1 other hother hc.2 hkey
      rw [hfilter] at hnodup
      exact absurd (List.Mem.head rest) (List.nodup_cons.1 hnodup).1

variable {rows : List Row}
  (hrows : List.Forall₂ Sqlite.Holds rows (t.columns.values.map (Sqlite.columnCells t)))

include hrows

theorem map_columnOf : rows.map Sqlite.columnOf = t.columns.values.map t.toldColumn :=
  Sqlite.map_eq_of_forall₂ (List.forall₂_map_right_iff.1 hrows) fun _ _ hc hrow =>
    h.columnOf_eq hc hrow

theorem primaryKeyOf_eq :
    Sqlite.primaryKeyOf rows = (t.columns.values.filter (·.isPrimaryKey)).map (·.name) := by
  have htold : rows.map Sqlite.keyPart =
      t.columns.values.map fun c => ((t.keyPosition c : Int), c.name) := by
    refine Sqlite.map_eq_of_forall₂ (List.forall₂_map_right_iff.1 hrows) fun row c _ hrow => ?_
    have hname : Sqlite.textOf row "name" = c.name := hrow.textOf (by simp [Sqlite.columnCells])
    have hkey : Sqlite.numberOf row "pk" = (t.keyPosition c : Int) :=
      hrow.numberOf (by simp [Sqlite.columnCells])
    rw [Sqlite.keyPart, hname, hkey]
  have hparts : (rows.filter fun row => 0 < Sqlite.numberOf row "pk").map Sqlite.keyPart =
      (t.columns.values.filter (·.isPrimaryKey)).map fun c => ((1 : Int), c.name) := by
    have hfilter := congrArg (List.filter fun part => 0 < part.1) htold
    rw [List.filter_map, List.filter_map] at hfilter
    refine hfilter.trans ?_
    have hpositive : ((fun part : Int × String => decide (0 < part.1)) ∘
        fun c : Column => ((t.keyPosition c : Int), c.name)) = (·.isPrimaryKey) := by
      funext c
      simp only [Function.comp_apply, h.keyPosition]
      cases c.isPrimaryKey <;> rfl
    rw [hpositive]
    refine List.map_congr_left fun c hc => ?_
    rw [h.keyPosition, if_pos (List.mem_filter.1 hc).2]
    rfl
  change (((rows.filter fun row => 0 < Sqlite.numberOf row "pk").map Sqlite.keyPart).mergeSort _).map
    Prod.snd = _
  rw [hparts]
  rcases h.keyColumns_eq with hkeys | ⟨c, _, hkeys⟩ <;> rw [hkeys] <;> simp

/-- Before the text of the definition is looked at no column counts up. -/
theorem get?_foldl_addColumn (name : String) :
    ((rows.map Sqlite.columnOf).foldl Table.addColumn { name := t.name }).columns.get? name =
      (t.columns.get? name).map fun c => { t.toldColumn c with table := t.name } := by
  obtain ⟨primaryKey, hfilled⟩ := Table.foldl_addColumn (rows.map Sqlite.columnOf) { name := t.name }
  have hnames : (rows.map Sqlite.columnOf).map (·.name) = t.columns.keys := by
    rw [h.map_columnOf hrows, List.map_map, h.named.keys_eq]
    rfl
  rw [hfilled]
  cases hget : t.columns.get? name with
  | none =>
    refine (Assoc.get?_foldl_insert_of_notMem _ ?_).trans rfl
    rw [hnames]
    exact Assoc.get?_eq_none_iff.1 hget
  | some c =>
    refine Assoc.get?_foldl_insert_of_mem _ (hnames ▸ Assoc.mem_keys_iff.2 ⟨c, hget⟩) ?_
    intro told htold hname
    rw [h.map_columnOf hrows] at htold
    obtain ⟨other, hother, rfl⟩ := List.mem_map.1 htold
    have hsame := h.named.get?_of_mem hother
    rw [show other.name = name from hname, hget] at hsame
    rw [Option.some.inj hsame]

omit hrows in
/-- The column of the primary key is known by its name. -/
theorem isPrimaryKey_iff {key : Column} (hkeys : t.columns.values.filter (·.isPrimaryKey) = [key])
    {name : String} {c : Column} (hc : t.columns.get? name = some c) :
    c.isPrimaryKey = true ↔ name = key.name := by
  obtain ⟨hmem, hkeyed⟩ := List.mem_filter.1 (hkeys ▸ List.mem_singleton_self key)
  constructor
  · intro hprimary
    rw [h.alone key hmem c (Assoc.mem_values_of_get? hc) hkeyed hprimary, h.named name c hc]
  · intro hname
    rw [hname, h.named.get?_of_mem hmem] at hc
    rwa [← Option.some.inj hc]

/-- The columns that a table has before its indexes are known. -/
theorem tableOf_eq {definition : Row} {text : String}
    (htext : Sqlite.textOf? definition "sql" = some text) :
    (Sqlite.tableOf t.name definition rows).name = t.name ∧
      (Sqlite.tableOf t.name definition rows).indexes = [] ∧
      ∀ name, (Sqlite.tableOf t.name definition rows).columns.get? name =
        (t.columns.get? name).map fun c =>
          { t.toldColumn c with
            table := t.name, isAutoIncrement := c.isPrimaryKey && Sqlite.countsUp text } := by
  obtain ⟨primaryKey, hfilled⟩ := Table.foldl_addColumn (rows.map Sqlite.columnOf) { name := t.name }
  refine ⟨by rw [Sqlite.tableOf, hfilled], by rw [Sqlite.tableOf, hfilled], fun name => ?_⟩
  simp only [Sqlite.tableOf, htext, Option.any_some]
  rcases h.keyColumns_eq with hkeys | ⟨key, _, hkeys⟩
  · rw [h.primaryKeyOf_eq hrows, hkeys, List.map_nil, h.get?_foldl_addColumn hrows]
    refine Option.map_congr fun c hc => ?_
    have hnone : c.isPrimaryKey = false := by
      have hnot : c ∉ t.columns.values.filter (·.isPrimaryKey) := by simp [hkeys]
      simpa [List.mem_filter, Assoc.mem_values_of_get? hc] using hnot
    rw [hnone]
    rfl
  · rw [h.primaryKeyOf_eq hrows, hkeys]
    simp only [List.map_cons, List.map_nil]
    cases hcounts : Sqlite.countsUp text with
    | false =>
      rw [if_neg Bool.false_ne_true, h.get?_foldl_addColumn hrows]
      simp only [Bool.and_false]
      rfl
    | true =>
      rw [if_pos rfl, Assoc.get?_modify, h.get?_foldl_addColumn hrows]
      simp only [Bool.and_true]
      cases hc : t.columns.get? name with
      | none => simp
      | some c =>
        have hown := h.isPrimaryKey_iff hkeys hc
        simp only [Option.map_some]
        by_cases hname : name = key.name
        · rw [if_pos hname, hown.2 hname]
        · rw [if_neg hname, Bool.eq_false_iff.2 (mt hown.1 hname)]
          rfl

end Table.IsSimple

/-! ## Indexes -/

namespace Sqlite

/-- The table with what an entry says of it. -/
def addEntry (t : Table) (e : IndexEntry) : Table :=
  match e.origin, e.columns with
  | .primaryKey, _ => t
  | .unique, [column] =>
    { t with columns := t.columns.modify column fun c => { c with isUnique := true } }
  | .unique, columns => t.addIndex (({ name := e.name, columns, unique := true } : Index).fromDatabase)
  | .created, columns =>
    t.addIndex (({ name := e.name, columns, unique := e.unique } : Index).fromDatabase)

/-- Rows that are numbered in ascending order are in order. -/
theorem sortRows_eq {column : String} {rows : List Row} (start count : Nat)
    (h : rows.map (numberOf · column) = (List.range' start count).map Int.ofNat) :
    sortRows column rows = rows := by
  refine List.mergeSort_of_pairwise ?_
  have hascending : List.Pairwise (· ≤ ·) (rows.map (numberOf · column)) := by
    rw [h, List.pairwise_map]
    exact (List.pairwise_le_range' 1).imp Int.ofNat_le.2
  simpa [List.pairwise_map] using hascending

/-- What each row says is read from all of them. -/
theorem filterMap_eq_of_map_eq {α β γ : Type} {f : α → Option γ} {g : β → γ} {as : List α}
    {bs : List β} (h : as.map f = bs.map fun b => some (g b)) : as.filterMap f = bs.map g := by
  have hall := congrArg (List.filterMap id) h
  simpa [List.filterMap_map] using hall

variable {σ : Type} {q : Querier σ} {s : σ}

/-- The columns of an index are read in their order. -/
theorem indexColumns_eq {e : IndexEntry} {parts : List Row} (h : List.Forall₂ Holds parts e.columnCells) :
    (sortRows "seqno" parts).filterMap (textOf? · "name") = e.columns := by
  rw [IndexEntry.columnCells, List.forall₂_map_right_iff] at h
  have hplaces : parts.map (numberOf · "seqno") =
      e.columns.zipIdx.map fun entry => (entry.2 : Int) :=
    map_eq_of_forall₂ h fun row entry _ hrow => hrow.numberOf (.head _)
  have hnames : parts.map (textOf? · "name") = e.columns.zipIdx.map fun entry => some entry.1 :=
    map_eq_of_forall₂ h fun row entry _ hrow => hrow.textOf? (.tail _ (.head _))
  rw [sortRows_eq 0 e.columns.length, filterMap_eq_of_map_eq hnames,
    List.zipIdx_map_fst]
  rw [hplaces, ← List.zipIdx_map_snd, List.map_map]
  rfl

theorem withIndex_eq {row : Row} {e : IndexEntry} (h : Holds row e.cells) (t : Table) :
    withIndex t row e.columns = addEntry t e := by
  have hname : textOf row "name" = e.name := h.textOf (by simp [IndexEntry.cells])
  have hunique : numberOf row "unique" = if e.unique then 1 else 0 :=
    h.numberOf (by simp [IndexEntry.cells, flag])
  have horigin : textOf row "origin" = e.origin.code := h.textOf (by simp [IndexEntry.cells])
  simp only [withIndex, addEntry, hname, hunique, horigin]
  cases e.origin with
  | primaryKey => rfl
  | unique => rcases e.columns with _ | ⟨_, _ | _⟩ <;> rfl
  | created => cases e.unique <;> rfl

theorem yields_addIndexes {rows : List Row} {entries : List IndexEntry}
    (hrows : List.Forall₂ Holds rows (entries.map (·.cells)))
    (hparts : ∀ e ∈ entries, Answers q s (pragmaQuery "index_info" e.name) e.columnCells) (t : Table) :
    (addIndexes q t rows).Yields s (entries.foldl addEntry t) := by
  rw [List.forall₂_map_right_iff] at hrows
  induction hrows generalizing t with
  | nil => exact .of_pure t
  | @cons row e rows entries hrow _ ih =>
    have hname : textOf row "name" = e.name := hrow.textOf (by simp [IndexEntry.cells])
    obtain ⟨parts, hyields, hcells⟩ := hparts e (.head _)
    rw [addIndexes, List.foldlM_cons]
    refine Action.Yields.bind (b := addEntry t e) ?_ (ih (fun e he => hparts e (.tail _ he)) _)
    rw [hname]
    refine hyields.bind ?_
    rw [indexColumns_eq hcells, withIndex_eq hrow]
    exact .of_pure _

/-- What a table is when all its entries have been added. -/
theorem foldl_addEntry {entries : List IndexEntry}
    (hsingle : ∀ e ∈ entries, e.origin = .unique → ∃ column, e.columns = [column]) (t : Table) :
    (entries.foldl addEntry t).name = t.name ∧
      (entries.foldl addEntry t).indexes =
        t.indexes ++ (entries.filter (·.origin = .created)).map (fun e => ({
          name := e.name, table := t.name, columns := e.columns, unique := e.unique } : Index).fromDatabase) ∧
      ∀ name, (entries.foldl addEntry t).columns.get? name = (t.columns.get? name).map fun c =>
        { c with isUnique :=
            c.isUnique || entries.any fun e => e.origin = .unique && e.columns = [name] } := by
  induction entries generalizing t with
  | nil => simp
  | cons e rest ih =>
    obtain ⟨hname, hindexes, hcolumns⟩ := ih (fun e he => hsingle e (.tail _ he)) (addEntry t e)
    rw [List.foldl_cons, hname, hindexes]
    simp only [hcolumns]
    cases horigin : e.origin with
    | primaryKey => simp [addEntry, horigin]
    | created => simp [addEntry, horigin, Table.addIndex, Index.fromDatabase]
    | unique =>
      obtain ⟨column, hcolumn⟩ := hsingle e (.head rest) horigin
      refine ⟨by simp [addEntry, horigin, hcolumn], by simp [addEntry, horigin, hcolumn], fun name => ?_⟩
      simp only [addEntry, horigin, hcolumn, Assoc.get?_modify]
      cases t.columns.get? name with
      | none => simp
      | some c =>
        by_cases hsame : column = name
        · simp [horigin, hcolumn, hsame]
        · simp [horigin, hcolumn, hsame, Ne.symm hsame]

/-! ## The whole table -/

namespace IndexEntry

@[simp]
theorem origin_withoutOwnName (e : IndexEntry) : e.withoutOwnName.origin = e.origin := by
  unfold withoutOwnName
  split <;> rfl

@[simp]
theorem columns_withoutOwnName (e : IndexEntry) : e.withoutOwnName.columns = e.columns := by
  unfold withoutOwnName
  split <;> rfl

end IndexEntry

section Entries

variable {t : Table} {created : List Index} {entries : List IndexEntry}

/-- The origins of the entries of a table. -/
theorem mem_indexEntries_iff {e : IndexEntry} :
    e ∈ indexEntries t created ↔
      (∃ i ∈ created, e = ⟨i.name, i.unique, .created, i.columns⟩) ∨
        (∃ c ∈ t.columns.values, t.declaresUnique c = true ∧ e = ⟨"", true, .unique, [c.name]⟩) ∨
          e ∈ keyEntries t := by
  simp only [indexEntries, uniqueEntries, List.mem_append, List.mem_map, List.mem_filter, or_assoc,
    and_assoc, eq_comm (b := e)]

theorem origin_of_mem_keyEntries {e : IndexEntry} (h : e ∈ keyEntries t) : e.origin = .primaryKey := by
  unfold keyEntries at h
  split at h
  · cases h
  · rw [List.mem_singleton.1 h]

variable (h : (entries.map (·.withoutOwnName)).Perm (indexEntries t created))

include h

/-- The entries of created indexes are those of the indexes that were created. -/
theorem filter_created_perm :
    (entries.filter (·.origin = .created)).Perm
      (created.map fun i => ⟨i.name, i.unique, .created, i.columns⟩) := by
  have hleft : (entries.map (·.withoutOwnName)).filter (·.origin = .created) =
      entries.filter (·.origin = .created) := by
    rw [List.filter_map]
    refine (List.map_congr_left fun e he => ?_).trans ((List.map_id _).trans ?_)
    · have horigin : e.origin = .created := by simpa using (List.mem_filter.1 he).2
      exact if_pos horigin
    · simp [Function.comp_def]
  have hall : (created.map fun i : Index => (⟨i.name, i.unique, .created, i.columns⟩ : IndexEntry)).filter
      (·.origin = .created) = created.map fun i => ⟨i.name, i.unique, .created, i.columns⟩ :=
    List.filter_eq_self.2 (by simp)
  have hunique : (uniqueEntries t).filter (·.origin = .created) = [] :=
    List.filter_eq_nil_iff.2 fun e he => by
      obtain ⟨c, _, rfl⟩ := List.mem_map.1 he
      simp
  have hkey : (keyEntries t).filter (·.origin = .created) = [] :=
    List.filter_eq_nil_iff.2 fun e he => by simp [origin_of_mem_keyEntries he]
  have hright : (indexEntries t created).filter (·.origin = .created) =
      created.map fun i => ⟨i.name, i.unique, .created, i.columns⟩ := by
    rw [indexEntries, List.filter_append, List.filter_append, hall, hunique, hkey, List.append_nil,
      List.append_nil]
  rw [← hleft, ← hright]
  exact h.filter _

/-- An entry that keeps something unique keeps one column unique whose definition says so. -/
theorem exists_column_of_unique {e : IndexEntry} (he : e ∈ entries) (horigin : e.origin = .unique) :
    ∃ c ∈ t.columns.values, t.declaresUnique c = true ∧ e.columns = [c.name] := by
  have hmem : e.withoutOwnName ∈ indexEntries t created :=
    h.mem_iff.1 (List.mem_map.2 ⟨e, he, rfl⟩)
  rw [← e.columns_withoutOwnName]
  rw [← e.origin_withoutOwnName] at horigin
  rcases mem_indexEntries_iff.1 hmem with ⟨i, _, hsame⟩ | ⟨c, hc, hunique, hsame⟩ | hkey
  · rw [hsame] at horigin
    cases horigin
  · exact ⟨c, hc, hunique, by rw [hsame]⟩
  · rw [origin_of_mem_keyEntries hkey] at horigin
    cases horigin

/-- Each column whose definition says so is kept unique. -/
theorem any_unique_eq (hnamed : t.columns.IsNamed Column.name) {c : Column} (hc : c ∈ t.columns.values) :
    (entries.any fun e => e.origin = .unique && e.columns = [c.name]) = t.declaresUnique c := by
  rw [Bool.eq_iff_iff, List.any_eq_true]
  constructor
  · rintro ⟨e, he, hunique⟩
    simp only [Bool.and_eq_true, decide_eq_true_eq] at hunique
    obtain ⟨other, hother, hdeclared, hcolumns⟩ := exists_column_of_unique h he hunique.1
    have hname : other.name = c.name := List.singleton_inj.1 (hcolumns.symm.trans hunique.2)
    rwa [← List.inj_on_of_nodup_map hnamed.nodup hother hc hname]
  · intro hunique
    have hmem := h.mem_iff.2 (mem_indexEntries_iff.2 (.inr (.inl ⟨c, hc, hunique, rfl⟩)))
    obtain ⟨e, he, hsame⟩ := List.mem_map.1 hmem
    refine ⟨e, he, ?_⟩
    rw [← e.origin_withoutOwnName, ← e.columns_withoutOwnName, hsame]
    simp

end Entries

/-- An index as it is read back: its method is not told. -/
def readIndex (table : String) (i : Index) : Index :=
  ({ name := i.name, table, columns := i.columns, unique := i.unique } : Index).fromDatabase

/-- Whether a table was read back from what was reported of another one and the indexes created for it. -/
structure IsReadFrom (old t : Table) (created : List Index) (counts : Bool) : Prop where
  name : old.name = t.name
  columns : ∀ name, old.columns.get? name = (t.columns.get? name).map (t.readColumn counts)
  indexes : old.indexes.Perm (created.map (readIndex t.name))
  distinct : (created.map (·.name)).Nodup

/-- A simple table is read back. -/
theorem yields_table? {definition : TableDefinition} {created : List Index}
    (h : ReportsTable q s definition created) (hsimple : definition.table.IsSimple) :
    ∃ old, (table? q definition.table.name).Yields s (some old) ∧
      IsReadFrom old definition.table created
        (countsUp ((Ddl.createTable definition false).render .sqlite)) := by
  obtain ⟨definitions, htext, hdefinition⟩ := h.text
  obtain ⟨row, rows, hrow, hrows, rfl⟩ := List.forall₂_cons_right_iff.1 hdefinition
  obtain ⟨told, hcolumns, htold⟩ := h.columns
  obtain ⟨entries, hnames, hentries, ⟨listed, hlisted, hheld⟩, hparts⟩ := h.indexes
  have hsql := hrow.textOf? (.head _)
  obtain ⟨hname, hindexes, hget⟩ := hsimple.tableOf_eq htold hsql
  obtain ⟨hname', hindexes', hget'⟩ :=
    foldl_addEntry (fun e he horigin => by
        obtain ⟨c, _, _, hcolumns⟩ := exists_column_of_unique hentries he horigin
        exact ⟨c.name, hcolumns⟩)
      (tableOf definition.table.name row told)
  refine ⟨entries.foldl addEntry (tableOf definition.table.name row told), ?_, ?_⟩
  · refine htext.bind (hcolumns.bind (hlisted.bind ?_))
    exact (yields_addIndexes hheld hparts _).bind (.of_pure _)
  · have hcreated := filter_created_perm hentries
    refine ⟨hname'.trans hname, fun name => ?_, ?_, ?_⟩
    · rw [hget', hget, Option.map_map]
      refine Option.map_congr fun c hc => ?_
      have hmem := Assoc.mem_values_of_get? hc
      have hunique : definition.table.declaresUnique c = c.isUnique := by
        rw [Table.declaresUnique, hsimple.holdsKey]
        cases hkey : c.isPrimaryKey with
        | false => simp
        | true => rw [(hsimple.key c hmem hkey).2, Bool.false_and]
      have hany := any_unique_eq hentries hsimple.named hmem
      rw [hsimple.named name c hc, hunique] at hany
      simp only [Function.comp_apply, hany]
      rfl
    · rw [hindexes', hindexes, hname, List.nil_append]
      refine (hcreated.map _).trans (.of_eq ?_)
      rw [List.map_map]
      rfl
    · have hsub := (List.filter_sublist (p := fun e : IndexEntry => e.origin = .created)).map (·.name)
        |>.nodup hnames
      have hperm := (hcreated.map (·.name)).nodup_iff.1 hsub
      rwa [List.map_map] at hperm

end Sqlite

end EntitySql
