import EntitySql.Proofs.Sqlite.ReadTable
/-!
# A database that reports what was created

A connection whose state are the statements that have been run, and which answers the queries of the catalog as
SQLite does after them (`Sqlite.reports_database`).
-/

namespace EntitySql.Sqlite

/-- The indexes of a table with the names that SQLite gives to those it makes by itself. -/
def namedEntries (t : Table) (created : List Index) : List IndexEntry :=
  (indexEntries t created).zipIdx.map fun (e, place) =>
    if e.origin = .created then e
    else { e with name := "sqlite_autoindex_" ++ t.name ++ "_" ++ toString (place + 1) }

/-- What is answered to the queries about a table. -/
def tableAnswers (definition : TableDefinition) (created : List Index) : List (Sql × List Cells) :=
  let t := definition.table
  let entries := namedEntries t created
  [(masterQuery "sql" t.name, [[("sql", .text ((Ddl.createTable definition false).render .sqlite))]]),
    (pragmaQuery "table_info" t.name, t.columns.values.map (columnCells t)),
    (pragmaQuery "index_list" t.name, entries.map (·.cells)),
    (pragmaQuery "foreign_key_list" t.name, (keyParts definition.foreignKeys).map (·.cells))] ++
  entries.map fun e => (pragmaQuery "index_info" e.name, e.columnCells)

/-- What is answered to the queries of the catalog after the statements. -/
def answers (statements : List Ddl) : List (Sql × List Cells) :=
  (tableNamesQuery, (((statements.filterMap definition?).map (·.table.name)).filter (!isHidden ·)).map
    fun name => [("name", .text name)]) ::
  (statements.filterMap definition?).flatMap fun definition =>
    tableAnswers definition (statements.filterMap (indexOf? definition.table.name))

/-- The rows that are answered to a query after the statements. -/
def answeredRows (statements : List Ddl) (query : String) : List Row :=
  ((((answers statements).find? fun answer => Dialect.sqlite.render answer.1 == query).map (·.2)).getD []).map
    Assoc.ofPairs

/-- A connection that answers as SQLite does after the statements that are its state. -/
def database : Querier (List Ddl) where
  kind := .sql .sqlite
  isOpen := fun _ => false
  all := fun query => do return answeredRows (← get) query
  run := fun _ => pure ()
  beginTransaction := pure ()
  commitTransaction := pure ()
  rollbackTransaction := pure ()
  release := pure ()

/-- SQLite names what it makes by itself, and nothing else. -/
theorem map_withoutOwnName_namedEntries (t : Table) (created : List Index) :
    (namedEntries t created).map (·.withoutOwnName) = indexEntries t created := by
  rw [namedEntries, List.map_map]
  refine (List.map_congr_left (g := Prod.fst) fun entry hentry => ?_).trans (List.zipIdx_map_fst 0 _)
  simp only [Function.comp_apply]
  split
  · rename_i hcreated
    exact if_pos hcreated
  · rename_i hown
    have hname : entry.1.name = "" := by
      rcases mem_indexEntries_iff.1 (List.fst_mem_of_mem_zipIdx hentry) with
        ⟨i, _, hsame⟩ | ⟨c, _, _, hsame⟩ | hkey
      · exact absurd (congrArg IndexEntry.origin hsame) hown
      · rw [hsame]
      · unfold keyEntries at hkey
        split at hkey
        · cases hkey
        · rw [List.mem_singleton.1 hkey]
    rw [IndexEntry.withoutOwnName, if_neg hown, ← hname]

/-- A row of cells in different columns holds them. -/
theorem holds_ofPairs {cells : Cells} (h : (cells.map Prod.fst).Nodup) : Holds (Assoc.ofPairs cells) cells := by
  intro cell hcell
  have hentries : (Assoc.ofPairs cells).entries = cells := Entries.ofPairs_of_nodup h
  rw [Assoc.get?_eq_some_iff, hentries]
  exact hcell

section Statements

variable {statements : List Ddl}
  (hqueries : ((answers statements).map fun answer => Dialect.sqlite.render answer.1).Nodup)

include hqueries

theorem answers_database {query : Sql} {answer : List Cells} (hmem : (query, answer) ∈ answers statements)
    (hcells : ∀ cells ∈ answer, (cells.map Prod.fst).Nodup) : Answers database statements query answer := by
  refine ⟨answer.map Assoc.ofPairs, ?_, ?_⟩
  · have hfind : (answers statements).find? (fun a => Dialect.sqlite.render a.1 == Dialect.sqlite.render query) =
        some (query, answer) := by
      obtain ⟨before, after, hsplit⟩ := List.append_of_mem hmem
      rw [hsplit, List.map_append, List.nodup_append] at hqueries
      rw [hsplit, List.find?_append, List.find?_eq_none.2 fun other hother => ?_, Option.none_or]
      · simp
      · rw [beq_iff_eq]
        exact hqueries.2.2 _ (List.mem_map.2 ⟨other, hother, rfl⟩) _ (.head _)
    change (Except.ok (answeredRows statements _), statements) = _
    rw [answeredRows, hfind]
    rfl
  · rw [List.forall₂_map_left_iff, List.forall₂_same]
    exact fun cells hmem => holds_ofPairs (hcells cells hmem)

/-- The database reports what the statements create. -/
theorem reports_database : Reports database statements statements where
  names := ⟨_, .refl _, answers_database hqueries (.head _)
    (List.forall_mem_map.2 fun _ _ => List.pairwise_singleton _ _)⟩
  tables := by
    intro definition hdefinition
    let created := statements.filterMap (indexOf? definition.table.name)
    let entries := namedEntries definition.table created
    have hall : ∀ answer ∈ tableAnswers definition created, answer ∈ answers statements :=
      fun answer hanswer => .tail _ (List.mem_flatMap.2 ⟨definition, hdefinition, hanswer⟩)
    have hparts : ∀ e ∈ entries, (pragmaQuery "index_info" e.name, e.columnCells) ∈ answers statements :=
      fun e he => hall _ (List.mem_append_right _ (List.mem_map.2 ⟨e, he, rfl⟩))
    have hnames : (entries.map (·.name)).Nodup := by
      have hsub : ((tableAnswers definition created).map fun answer => Dialect.sqlite.render answer.1).Nodup := by
        obtain ⟨before, after, hsplit⟩ := List.append_of_mem hdefinition
        rw [answers, hsplit, List.flatMap_append, List.flatMap_cons, List.map_cons, List.nodup_cons,
          List.map_append, List.map_append, List.nodup_append, List.nodup_append] at hqueries
        exact hqueries.2.2.1.1
      rw [tableAnswers, List.map_append, List.nodup_append, List.map_map] at hsub
      refine List.Nodup.of_map (fun name => Dialect.sqlite.render (pragmaQuery "index_info" name)) ?_
      rw [List.map_map]
      exact hsub.2.1
    refine {
      text := answers_database hqueries (hall _ (.head _)) ?_
      columns := answers_database hqueries (hall _ (.tail _ (.head _))) ?_
      indexes := ⟨entries, hnames, .of_eq (map_withoutOwnName_namedEntries _ _),
        answers_database hqueries (hall _ (.tail _ (.tail _ (.head _)))) ?_,
        fun e he => answers_database hqueries (hparts e he) ?_⟩
      keys := ⟨definition.foreignKeys, .refl _,
        answers_database hqueries (hall _ (.tail _ (.tail _ (.tail _ (.head _))))) ?_⟩ }
    · exact List.forall_mem_singleton.2 (List.pairwise_singleton _ _)
    all_goals refine List.forall_mem_map.2 fun _ _ => ?_
    · exact (by decide : ["name", "type", "notnull", "dflt_value", "pk"].Nodup)
    · exact (by decide : ["name", "unique", "origin"].Nodup)
    · exact (by decide : ["seqno", "name"].Nodup)
    · exact (by decide : ["id", "seq", "table", "from", "to", "on_update", "on_delete"].Nodup)

end Statements

end EntitySql.Sqlite
