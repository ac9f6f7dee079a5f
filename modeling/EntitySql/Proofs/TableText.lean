import EntitySql.Migration.History
import EntitySql.Proofs.Joins.Path
import EntitySql.Proofs.Lexing.Quoting
import EntitySql.Proofs.Request
import EntitySql.Proofs.Schema.FromRegistry
/-!
# How a table is called

A statement names the table of an entity in many places. Behind `FROM`, `JOIN`, `INSERT INTO`, `UPDATE` and
`DELETE FROM` the name is a path, whose parts between dots are identifiers. In front of a column, and in all
statements that change the schema, it is one identifier (`Compiler.WritesTable.eq_or_eq`). The two are the same
text if and only if the name has no dot (`Dialect.render_path_eq_iff`), so a name with a dot is that of one table
where rows are read and of another where the table is created.
-/

namespace EntitySql

/-! ## Paths and identifiers -/

/-- The names as identifiers with dots between them. -/
def Sql.dotted (names : List String) : Sql :=
  List.intercalate [.word "."] (names.map fun name => [.name name])

theorem Sql.dotted_cons_cons (name next : String) (rest : List String) :
    dotted (name :: next :: rest) = .name name :: .word "." :: dotted (next :: rest) := rfl

theorem Text.length_splitOn_dot (cs : List Char) : (cs.splitOn '.').length = cs.count '.' + 1 := by
  induction cs with
  | nil => rfl
  | cons c rest ih =>
    rw [List.splitOn] at ih ⊢
    rw [List.splitOnP_cons_eq_if_modifyHead, List.count_cons]
    split <;> simp [*]

/-- A path has at least one identifier. -/
theorem Sql.exists_path_eq {name : String} (h : name ≠ "") :
    ∃ part rest, name.toList.splitOn '.' = part :: rest ∧
      path name = dotted (String.ofList part :: rest.map String.ofList) := by
  have hpath : path name = dotted (segments name) := if_neg (by simpa using h)
  cases hparts : name.toList.splitOn '.' with
  | nil =>
    have hlength := Text.length_splitOn_dot name.toList
    rw [hparts] at hlength
    cases hlength
  | cons part rest => exact ⟨part, rest, rfl, by rw [hpath, segments, hparts, List.map_cons]⟩

namespace Dialect

variable (d : Dialect)

theorem length_doubled_append (c : Char) (first second : List Char) :
    (doubled c (first ++ second)).length = (doubled c first).length + (doubled c second).length := by
  simp [doubled]

theorem length_quoteName (name : List Char) :
    (d.quoteName (String.ofList name)).length = (doubled d.quoteChar name).length + 2 := by
  simp [quoteName]

/-- The identifiers of a path have quotes of their own, beside those that the whole name has. -/
theorem length_characters_dotted (part : List Char) (rest : List (List Char)) :
    (d.characters (Sql.dotted (String.ofList part :: rest.map String.ofList))).length =
      (d.quoteName (String.ofList (List.intercalate ['.'] (part :: rest)))).length + 2 * rest.length := by
  have hdot : (doubled d.quoteChar ['.']).length = 1 := by cases d <;> rfl
  induction rest generalizing part with
  | nil => simp [Sql.dotted, renderPiece]
  | cons next rest ih =>
    have hname : List.intercalate ['.'] (part :: next :: rest) =
        part ++ (['.'] ++ List.intercalate ['.'] (next :: rest)) := rfl
    have hpart : (d.renderPiece (.name (String.ofList part))).length =
        (doubled d.quoteChar part).length + 2 := d.length_quoteName part
    have hseparator : (d.renderPiece (.word ".")).length = 1 := rfl
    rw [List.map_cons, Sql.dotted_cons_cons, hname, characters_cons, characters_cons, List.length_append,
      List.length_append, ih, hpart, hseparator, length_quoteName, length_quoteName, length_doubled_append,
      length_doubled_append, hdot, List.length_cons]
    omega

/-- A name as a path and as one identifier are the same text if and only if there is no dot in it. -/
theorem render_path_eq_iff {name : String} (h : name ≠ "") :
    d.render (Sql.path name) = d.render [.name name] ↔ '.' ∉ name.toList := by
  obtain ⟨part, rest, hparts, hpath⟩ := Sql.exists_path_eq h
  have hcount := Text.length_splitOn_dot name.toList
  have hwhole : List.intercalate ['.'] (part :: rest) = name.toList :=
    hparts ▸ List.intercalate_splitOn '.'
  rw [hparts, List.length_cons] at hcount
  constructor
  · intro heq
    have hlength := congrArg (fun text : String => text.toList.length) heq
    have hname : (d.characters [.name name]).length = (d.quoteName name).length := by simp [renderPiece]
    simp only [toList_render] at hlength
    rw [hpath, length_characters_dotted, hwhole, String.ofList_toList, hname] at hlength
    exact List.count_eq_zero.1 (by omega)
  · intro hdot
    obtain rfl : rest = [] := List.length_eq_zero_iff.1 (by rw [List.count_eq_zero.2 hdot] at hcount; omega)
    have hone : String.ofList part = name := by
      rw [List.intercalate_singleton] at hwhole
      rw [hwhole, String.ofList_toList]
    rw [hpath, hone]
    rfl

end Dialect

namespace Sql

/-! ## Reading a name in a statement -/

/-- Whether the piece is part of a name: an identifier or the dot between two of them. -/
def Piece.inName : Piece → Bool
  | .name _ => true
  | .word text => text == "."
  | _ => false

/-- The first name in a text, with all identifiers that dots join. -/
def firstName (sql : Sql) : Sql := (sql.dropWhile fun piece => !piece.inName).takeWhile Piece.inName

/-- What stands behind the given words. -/
def behind (words : String) (sql : Sql) : Sql := (sql.dropWhile (· != .word words)).drop 1

/-- Whether the text is a name and nothing else. -/
def IsName (sql : Sql) : Prop := sql ≠ [] ∧ ∀ piece ∈ sql, piece.inName = true

/-- Whether the text does not go on with a name. -/
def EndsName (sql : Sql) : Prop := ∀ piece ∈ sql.head?, piece.inName = false

/-- Whether the text calls the name before any other. -/
def Calls (name sql : Sql) : Prop :=
  ∃ head rest, sql = head ++ name ++ rest ∧ (∀ piece ∈ head, piece.inName = false) ∧ EndsName rest

variable {name sql rest : Sql} {text : String}

/-- What stands behind words that do not occur before. -/
theorem behind_append (h : Piece.word text ∉ sql) : behind text (sql ++ .word text :: rest) = rest := by
  have hbefore : ∀ piece ∈ sql, (piece != .word text) = true := fun piece hpiece =>
    bne_iff_ne.2 fun heq => h (heq ▸ hpiece)
  rw [behind, List.dropWhile_append_of_pos hbefore, List.dropWhile_cons_of_neg (by simp), List.drop_one,
    List.tail_cons]

theorem inName_word (h : text ≠ ".") : (Piece.word text).inName = false := beq_eq_false_iff_ne.2 h

theorem EndsName.nil : EndsName [] := nofun

theorem EndsName.word (h : text ≠ ".") (rest : Sql) : EndsName (.word text :: rest) := by
  intro piece hpiece
  obtain rfl := Option.mem_some_iff.1 hpiece
  exact inName_word h

theorem EndsName.append {first second : Sql} (hfirst : EndsName first) (hsecond : EndsName second) :
    EndsName (first ++ second) := by
  cases first with
  | nil => exact hsecond
  | cons piece first =>
    intro other hother
    exact hfirst other hother

theorem Calls.start (h : EndsName rest) : Calls name (name ++ rest) := ⟨[], rest, rfl, nofun, h⟩

theorem Calls.self : Calls name name := ⟨[], [], (List.append_nil name).symm, nofun, .nil⟩

theorem Calls.cons (htext : text ≠ ".") (h : Calls name sql) : Calls name (.word text :: sql) := by
  obtain ⟨head, rest, rfl, hhead, hrest⟩ := h
  exact ⟨.word text :: head, rest, rfl, List.forall_mem_cons.2 ⟨inName_word htext, hhead⟩, hrest⟩

theorem Calls.append (h : Calls name sql) (hrest : EndsName rest) : Calls name (sql ++ rest) := by
  obtain ⟨head, first, rfl, hhead, hfirst⟩ := h
  exact ⟨head, first ++ rest, List.append_assoc _ _ _, hhead, hfirst.append hrest⟩

/-- A name is read as far as it goes. -/
theorem Calls.firstName_eq (h : Calls name sql) (hname : IsName name) : firstName sql = name := by
  obtain ⟨head, rest, rfl, hhead, hrest⟩ := h
  have hend : rest.takeWhile Piece.inName = [] := by
    cases rest with
    | nil => rfl
    | cons piece rest => exact List.takeWhile_cons_of_neg (by simp [hrest piece rfl])
  obtain ⟨piece, pieces, rfl⟩ := List.exists_cons_of_ne_nil hname.1
  have hpiece := hname.2 piece (.head pieces)
  rw [firstName, List.append_assoc, List.dropWhile_append_of_pos (by simpa using hhead), List.cons_append,
    List.dropWhile_cons_of_neg (by simp [hpiece]), ← List.cons_append, List.takeWhile_append_of_pos hname.2,
    hend, List.append_nil]

theorem isName_name (name : String) : IsName [.name name] := ⟨List.cons_ne_nil _ [], by simp [Piece.inName]⟩

theorem isName_dotted (name : String) (others : List String) : IsName (dotted (name :: others)) := by
  induction others generalizing name with
  | nil => exact isName_name name
  | cons next others ih =>
    rw [dotted_cons_cons]
    refine ⟨List.cons_ne_nil _ _, List.forall_mem_cons.2 ⟨rfl, ?_⟩⟩
    exact List.forall_mem_cons.2 ⟨rfl, (ih next).2⟩

theorem isName_path {table : String} (h : table ≠ "") : IsName (path table) := by
  obtain ⟨part, parts, _, hpath⟩ := exists_path_eq h
  exact hpath ▸ isName_dotted _ _

/-- What stands in front of a column is its qualifier. -/
theorem eq_of_calls_column {table column : String} {front : Sql}
    (h : Calls (qualifier table ++ identifier column) sql) (htable : table ≠ "")
    (hname : firstName sql = front ++ .word "." :: identifier column) : front = [.name table] := by
  have hqualifier := qualifier_eq htable
  have hcolumn : IsName (qualifier table ++ identifier column) := by
    rw [hqualifier]
    refine ⟨List.cons_ne_nil _ _, ?_⟩
    unfold identifier
    split <;> simp [Piece.inName]
  rw [h.firstName_eq hcolumn, hqualifier] at hname
  have hfront : [.name table] ++ .word "." :: identifier column =
      front ++ .word "." :: identifier column := hname
  exact (List.append_cancel_right hfront).symm

end Sql

/-! ## Where a table is named -/

/-- Whether the request changes rows. -/
def Request.isWriting : Request → Bool
  | find _ _ | count _ _ => false
  | insert _ | upsert _ _ | update _ _ _ | delete _ _ => true

/-- The table that a statement about the schema names first: the one that it creates, drops or changes. -/
def Ddl.table? (d : Dialect) : Ddl → Option String
  | createTable definition _ => some definition.table.name
  | dropTable table _ _ | renameTable table _ | addColumn table _ | dropColumn table _ | renameColumn table _ _
  | setType table _ _ | setNullable table _ _ | setDefault table _ _ | addUnique table _ | dropUnique table _
  | modifyColumn table _ => some table
  | addForeignKey key | dropForeignKey key => if d.alterForeignKeys then some key.referencing.table else none
  | createIndex _ _ | dropIndex _ | lostDataRemark _ _ | lostIndexRemark _ => none

namespace Compiler

/-- Whether the columns of the root stand behind the name of its table. -/
def QualifiesByTable (m : Member) (projection? : Option Projection) (options : FindOptions) : Prop :=
  options.qualifier? = none ∧ (options.qualified || selectsRelation m projection?) = true

/-- The texts by which the table of an entity is called, place by place. -/
inductive WritesTable (c : Compiler) (m : Member) : Sql → Prop
  /-- Behind `FROM`. -/
  | read {query : Query} {options : FindOptions} {fields rest : Sql} {plan : JoinPlan}
      (hfields : c.projectedFields m query.projection? (rootQualifier? m query.projection? options) false =
        .ok fields)
      (hplan : c.plan m query.projection? none = .ok plan)
      (h : c.find m query options =
        .ok (.word "SELECT " :: Sql.commaList (fields :: plan.fields) ++ .word " FROM " :: rest)) :
      WritesTable c m (Sql.firstName rest)
  /-- Behind `INSERT INTO`, `UPDATE` and `DELETE FROM`. -/
  | written {request : Request} {sql : Sql} (hwriting : request.isWriting = true)
      (h : c.statement m request = .ok sql) : WritesTable c m (Sql.firstName sql)
  /-- Behind `JOIN`, where the entity is the target of a relation. -/
  | joined {owner : Member} {relation : Relation} {parent? : Option String} {path : String}
      {filter? : Option Filter} {required : Bool} {j : Join}
      (h : c.joinOf owner m relation parent? path filter? required = .ok j) :
      WritesTable c m (Sql.firstName j.toSql)
  /-- In front of a column that is read. -/
  | projected {projection? : Option Projection} {options : FindOptions} {key : String} {sql text : Sql}
      (hqualified : QualifiesByTable m projection? options) (hstored : m.entity.isStored key = true)
      (h : c.projectedItem m (rootQualifier? m projection? options) false (.field key) = .ok sql)
      (htext : Sql.firstName sql = text ++ .word "." :: Sql.identifier (m.columnName key)) :
      WritesTable c m text
  /-- In front of a column that a condition or a group is about. -/
  | compared {projection? : Option Projection} {options : FindOptions} {key : String} {sql text : Sql}
      (hqualified : QualifiesByTable m projection? options) (hstored : m.entity.isStored key = true)
      (h : c.columnReference m key (rootQualifier? m projection? options) = .ok sql)
      (htext : Sql.firstName sql = text ++ .word "." :: Sql.identifier (m.columnName key)) :
      WritesTable c m text
  /-- In front of a column that rows are ordered by. -/
  | ordered {projection? : Option Projection} {options : FindOptions} {key : String}
      {direction : Direction} {sql text : Sql} (hqualified : QualifiesByTable m projection? options)
      (hstored : m.entity.isStored key = true)
      (h : c.orderTerm m (rootQualifier? m projection? options) none key (.direction direction) = .ok [sql])
      (htext : Sql.firstName sql = text ++ .word "." :: Sql.identifier (m.columnName key)) :
      WritesTable c m text
  /-- In front of a column that the rows of a relation are joined on. -/
  | matched {target : Member} {relation : Relation} {path : String} {filter? : Option Filter}
      {required : Bool} {j : Join} {pair : String × String} {text : Sql}
      (h : c.joinOf m target relation none path filter? required = .ok j) (hpair : pair ∈ j.columns)
      (htext : Sql.firstName (Sql.behind " = " (j.equality pair)) =
        text ++ .word "." :: Sql.identifier pair.2) : WritesTable c m text
  /-- Behind `CREATE TABLE`, `DROP TABLE` and `ALTER TABLE`. -/
  | changed {statement : Ddl} (h : statement.table? c.dialect = some m.tableName) :
      WritesTable c m (Sql.firstName (statement.toSql c.dialect))
  /-- Behind the `ON` of `CREATE INDEX`. -/
  | indexed {i : Index} (guarded : Bool) (h : i.table = m.tableName) :
      WritesTable c m (Sql.firstName (Sql.behind " ON " ((Ddl.createIndex i guarded).toSql c.dialect)))
  /-- Behind `REFERENCES`. -/
  | referenced {key : Relationship} (h : key.referenced.table = m.tableName) :
      WritesTable c m (Sql.firstName (Sql.behind ") REFERENCES " (Ddl.foreignKeySql key)))

end Compiler

/-! ## What each place says -/

open Sql (Calls EndsName)

namespace Ddl

theorem endsName_wordsIf (condition : Bool) {text : String} (h : text ≠ ".") :
    EndsName (wordsIf condition text) := by
  unfold wordsIf
  split
  · exact .word h _
  · exact .nil

theorem calls_wordsIf_append (condition : Bool) {text : String} (h : text ≠ ".") {name sql : Sql}
    (hsql : Calls name sql) : Calls name (wordsIf condition text ++ sql) := by
  unfold wordsIf
  split
  · exact hsql.cons h
  · exact hsql

theorem endsName_commentSql (d : Dialect) {text : String} (h : text ≠ ".") (comment? : Option String) :
    EndsName (commentSql d text comment?) := by
  unfold commentSql
  split
  · exact .word h _
  · exact .nil

/-- A statement that changes the schema calls its table by the name. -/
theorem calls_toSql {statement : Ddl} {d : Dialect} {table : String} (h : statement.table? d = some table) :
    Calls [.name table] (statement.toSql d) := by
  have hhead {first next : String} {rest : Sql} (hfirst : first ≠ ".") (hnext : next ≠ ".") :
      Calls [.name table] (.word first :: .name table :: .word next :: rest) :=
    .cons hfirst (.start (.word hnext rest))
  cases statement with
  | createTable definition guarded =>
    obtain rfl := Option.some.inj h
    have hoptions : EndsName (.word ")" :: (d.tableOptions?.map Sql.words).getD []) := .word (by decide) _
    exact .append (.append (.cons (by decide) (calls_wordsIf_append _ (by decide)
      (.start (.word (by decide) _)))) hoptions) (endsName_commentSql d (by decide) _)
  | dropTable _ ifExists cascade =>
    obtain rfl := Option.some.inj h
    exact .cons (by decide) (calls_wordsIf_append _ (by decide) (.start (endsName_wordsIf _ (by decide))))
  | dropUnique _ column =>
    obtain rfl := Option.some.inj h
    rw [toSql]
    split <;> (apply hhead <;> decide)
  | addForeignKey key =>
    obtain ⟨halter, rfl⟩ : d.alterForeignKeys = true ∧ key.referencing.table = table := by
      simpa [table?] using h
    rw [toSql, if_pos halter]
    exact hhead (by decide) (by decide)
  | dropForeignKey key =>
    obtain ⟨halter, rfl⟩ : d.alterForeignKeys = true ∧ key.referencing.table = table := by
      simpa [table?] using h
    rw [toSql, if_pos halter]
    split <;> (apply hhead <;> decide)
  | createIndex _ _ | dropIndex _ | lostDataRemark _ _ | lostIndexRemark _ => cases h
  | renameTable _ _ | addColumn _ _ | dropColumn _ _ | renameColumn _ _ _ | setType _ _ _ | setNullable _ _ _
  | setDefault _ _ _ | addUnique _ _ | modifyColumn _ _ =>
    obtain rfl := Option.some.inj h
    apply hhead <;> decide

/-- The statement that creates an index calls the table by its name behind `ON`. -/
theorem calls_createIndexSql (d : Dialect) (i : Index) (guarded : Bool) :
    Calls [.name i.table] (Sql.behind " ON " (createIndexSql d i guarded)) := by
  unfold createIndexSql
  extract_lets kind head columns
  have hbehind (rest : Sql) : Sql.behind " ON " (head ++ rest) = .name i.table :: rest := by
    have hbefore : Sql.Piece.word " ON " ∉
        .word ("CREATE " ++ kind ++ "INDEX ") :: guardSql guarded d.indexIfNotExists ++ [.name i.name] := by
      have hkind : "CREATE " ++ kind ++ "INDEX " ≠ " ON " := by
        unfold kind
        split
        · decide
        · split <;> decide
      unfold guardSql wordsIf
      split <;> simp [hkind.symm]
    have hhead : head ++ rest = .word ("CREATE " ++ kind ++ "INDEX ") :: guardSql guarded d.indexIfNotExists ++
        [.name i.name] ++ .word " ON " :: .name i.table :: rest := by
      simp [head]
    rw [hhead, Sql.behind_append hbefore]
  split
  · rw [hbehind]
    exact .start (.word (by cases i.method <;> decide) _)
  · split
    · rw [List.append_assoc, hbehind]
      exact .start (.word (by decide) _)
    · rw [hbehind]
      exact .start (.word (by decide) _)

theorem word_notMem_quotedList {text : String} (h : text ≠ ", ") (names : List String) :
    Sql.Piece.word text ∉ quotedList names := by
  induction names with
  | nil => exact nofun
  | cons name others ih =>
    cases others with
    | nil => simp [quotedList, quoted, Sql.commaList, Sql.join]
    | cons next others =>
      have hsplit : quotedList (name :: next :: others) =
          .name name :: .word ", " :: quotedList (next :: others) := rfl
      simp [hsplit, h, ih]

/-- A foreign key calls the table that it refers to by the name. -/
theorem calls_foreignKeySql (key : Relationship) :
    Calls [.name key.referenced.table] (Sql.behind ") REFERENCES " (foreignKeySql key)) := by
  have hbefore : Sql.Piece.word ") REFERENCES " ∉
      .word "CONSTRAINT " :: .name key.name :: .word " FOREIGN KEY (" ::
        quotedList key.referencing.columns := by
    simp [word_notMem_quotedList]
  have hkey : foreignKeySql key = .word "CONSTRAINT " :: .name key.name :: .word " FOREIGN KEY (" ::
      quotedList key.referencing.columns ++ .word ") REFERENCES " :: .name key.referenced.table ::
        .word " (" :: (quotedList key.referenced.columns ++ [.word (") ON DELETE " ++
          key.deleteAction.keyword ++ " ON UPDATE " ++ key.updateAction.keyword)]) := by
    simp [foreignKeySql]
  rw [hkey, Sql.behind_append hbefore]
  exact .start (.word (by decide) _)

end Ddl

/-- A join calls its table by the path. -/
theorem Join.calls_toSql (j : Join) : Calls (Sql.path j.table) j.toSql := by
  have hcondition : EndsName (if j.condition.isEmpty then [] else .word " AND " :: j.condition.toSql) := by
    split
    · exact .nil
    · exact .word (by decide) _
  exact .append (.append (.append (.cons (by split <;> decide) .self) (.word (by decide) _))
    (.word (by decide) _)) hcondition

theorem JoinPlan.endsName_tables (plan : JoinPlan) : EndsName plan.tables := by
  unfold JoinPlan.tables
  induction plan.joins with
  | nil => exact .nil
  | cons j joins ih => exact .append (.word (by split <;> decide) _) ih

namespace Dialect

variable (d : Dialect)

theorem endsName_page (limit? skip? : Option Nat) : EndsName (d.page limit? skip?) := by
  have hword {keyword : String} (h : 1 < keyword.length) (amount : String) : keyword ++ amount ≠ "." := by
    intro heq
    have hlength := congrArg String.length heq
    rw [String.length_append] at hlength
    have hdot : ".".length = 1 := by decide
    omega
  refine .append ?_ ?_
  · split
    · exact .word (hword (by decide) _) _
    · exact .word (hword (by decide) _) _
    · exact .nil
  · split
    · exact .word (hword (by decide) _) _
    · exact .nil

theorem endsName_conflictClause (conflict update : List Sql) : EndsName (d.conflictClause conflict update) := by
  unfold conflictClause
  split
  · exact .word (by decide) _
  · dsimp only
    split <;> exact .word (by decide) _

end Dialect

namespace Compiler

variable (c : Compiler) (m : Member)

theorem endsName_clauseOf {clause : Clause} (h : clause ≠ .bare) (p : Predicate) :
    EndsName (clauseOf clause p) := by
  unfold clauseOf
  split
  · exact .nil
  · split
    · exact .word (by decide) _
    · exact .word (by decide) _
    · exact absurd rfl h

theorem ensures_filterClause (filter? : Option Filter) {options : FilterOptions} (h : options.clause ≠ .bare) :
    Ensures EndsName (c.filterClause m filter? options) :=
  .bind_any fun p => .pure (endsName_clauseOf h p)

/-- The clauses behind the joins do not go on with the name in front of them. -/
theorem ensures_criteria (query : Query) (options : FindOptions) :
    Ensures EndsName (c.criteria m query options) := by
  have hgroup (qualifier? : Option String) : Ensures EndsName (c.groupClause m query.group qualifier?) := by
    unfold groupClause
    split
    · exact .pure .nil
    · exact .bind_any fun _ => .pure (.word (by decide) _)
  have horder (qualifier? : Option String) : Ensures EndsName (c.orderClause m query.order? qualifier?) := by
    unfold orderClause
    split
    · exact .pure .nil
    · exact .pure .nil
    · exact .bind_any fun _ => .pure (.word (by decide) _)
  refine .bind (c.ensures_filterClause m _ (by simp)) fun rows hrows => (hgroup _).bind fun group hgroup =>
    .bind (c.ensures_filterClause m _ (by simp)) fun having hhaving => (horder _).bind fun order horder =>
      .pure ?_
  exact (((hrows.append hgroup).append hhaving).append horder).append (c.dialect.endsName_page _ _)

theorem ensures_insertRows (records : List Record) :
    Ensures (fun result => Calls (Sql.path m.tableName) result.1) (c.insertRows m records) := by
  unfold insertRows
  extract_lets completed keys
  split
  · exact .error _
  · exact .bind_any fun rows =>
      .pure (.append (.append (.cons (by decide) .self) (.word (by decide) _)) (.word (by decide) _))

theorem endsName_returningClause : EndsName (c.returningClause m) := by
  unfold returningClause
  split
  · exact .word (by decide) _
  · exact .nil

theorem ensures_updateRows (criterion? : Option Criterion) (record : Record) (softDelete? : Option Bool) :
    Ensures (Calls (Sql.path m.tableName)) (c.updateRows m criterion? record softDelete?) := by
  refine .bind_any fun sets => ?_
  split
  · exact .error _
  · exact (c.ensures_filterClause m _ (by simp)).bind fun rows hrows =>
      .pure (.append (.append (.cons (by decide) .self) (.word (by decide) _)) hrows)

theorem ensures_removeRows (criterion? : Option Criterion) :
    Ensures (Calls (Sql.path m.tableName)) (c.removeRows m criterion?) :=
  (c.ensures_filterClause m _ (by simp)).bind fun rows hrows =>
    .pure (.append (.cons (by decide) .self) hrows)

/-- A request that changes rows calls the table by its path. -/
theorem ensures_statement {request : Request} (h : request.isWriting = true) :
    Ensures (Calls (Sql.path m.tableName)) (c.statement m request) := by
  cases request with
  | find _ _ | count _ _ => cases h
  | insert records =>
    exact (c.ensures_insertRows m records).bind fun (sql, _) hsql =>
      .pure (hsql.append (c.endsName_returningClause m))
  | upsert conflictKeys record =>
    exact (c.ensures_insertRows m [record]).bind fun (sql, keys) hsql =>
      .pure ((hsql.append (c.dialect.endsName_conflictClause _ _)).append (c.endsName_returningClause m))
  | update criterion? record softDelete? => exact c.ensures_updateRows m criterion? _ softDelete?
  | delete criterion? softDelete? =>
    change Ensures _ (c.delete m criterion? softDelete?)
    unfold delete
    split
    · exact .error _
    · exact c.ensures_removeRows m criterion?
    · exact c.ensures_removeRows m criterion?
    · exact c.ensures_updateRows m criterion? _ _

/-- All rows can be taken out. -/
theorem exists_removal : ∃ sql, c.statement m (.delete none (some false)) = .ok sql := by
  have hguard : softDeleteGuard m none { softDelete? := some false } = [] := by
    unfold softDeleteGuard
    split <;> rfl
  have hrows : c.criterionClause m none { softDelete? := some false } = .ok [] := by
    rw [criterionClause, filterClause, Option.map_none, filterPredicate, hguard]
    rfl
  refine ⟨.word "DELETE FROM " :: Sql.path m.tableName ++ [], ?_⟩
  change c.removeRows m none = _
  rw [removeRows, hrows]
  rfl

/-- A statement that reads rows calls the table by its path behind `FROM`. -/
theorem calls_of_find {query : Query} {options : FindOptions} {fields rest : Sql} {plan : JoinPlan}
    (hfields : c.projectedFields m query.projection? (rootQualifier? m query.projection? options) false =
      .ok fields)
    (hplan : c.plan m query.projection? none = .ok plan)
    (h : c.find m query options =
      .ok (.word "SELECT " :: Sql.commaList (fields :: plan.fields) ++ .word " FROM " :: rest)) :
    Calls (Sql.path m.tableName) rest := by
  have hselection : c.selection m query.projection? options =
      .ok (.word "SELECT " :: Sql.commaList (fields :: plan.fields) ++
        .word " FROM " :: Sql.path m.tableName ++ plan.tables) := by
    rw [selection, hfields]
    change (c.plan m query.projection? none >>= fun plan => _) = _
    rw [hplan]
    rfl
  rw [find, hselection] at h
  obtain ⟨criteria, hcriteria, hrest⟩ :=
    ok_of_bind_eq_ok (f := fun criteria => pure (_ ++ criteria)) (x := c.criteria m query options) h
  obtain rfl : rest = Sql.path m.tableName ++ (plan.tables ++ criteria) := by
    simpa [List.append_assoc] using (Except.ok.inj hrest).symm
  exact .start (plan.endsName_tables.append (c.ensures_criteria m query options criteria hcriteria))

/-- A join names the table of its target and the rows that it starts from. -/
theorem ensures_joinOf (target : Member) (relation : Relation) (parent? : Option String) (path : String)
    (filter? : Option Filter) (required : Bool) :
    Ensures (fun j => j.table = target.tableName ∧ j.parent = parent?.getD m.tableName)
      (c.joinOf m target relation parent? path filter? required) := by
  unfold joinOf
  split
  · exact .bind_any fun condition => .pure ⟨rfl, rfl⟩
  · exact .pure ⟨rfl, rfl⟩

variable {c m}

theorem rootQualifier?_eq {projection? : Option Projection} {options : FindOptions}
    (h : QualifiesByTable m projection? options) : rootQualifier? m projection? options = some m.tableName := by
  rw [rootQualifier?, h.1]
  exact if_pos h.2

/-- Each place calls the table by its path or by its name. -/
theorem WritesTable.eq_or_eq {text : Sql} (h : c.WritesTable m text) (hname : m.tableName ≠ "") :
    text = Sql.path m.tableName ∨ text = [.name m.tableName] := by
  have hpath := Sql.isName_path hname
  cases h with
  | read hfields hplan h => exact .inl ((c.calls_of_find m hfields hplan h).firstName_eq hpath)
  | written hwriting h => exact .inl ((c.ensures_statement m hwriting _ h).firstName_eq hpath)
  | @joined _ _ _ _ _ _ j h =>
    have htable := (c.ensures_joinOf _ m _ _ _ _ _ _ h).1
    exact .inl ((htable ▸ j.calls_toSql).firstName_eq hpath)
  | @projected projection? options key sql _ hqualified hstored h htext =>
    have hsql : Calls (column m key (some m.tableName)) sql := by
      rw [projectedItem, rootQualifier?_eq hqualified, computed?_eq_none hstored] at h
      dsimp only at h
      split at h <;> cases h
      · exact .append .self (.word (by decide) _)
      · exact .self
    exact .inr (Sql.eq_of_calls_column hsql hname htext)
  | compared hqualified hstored h htext =>
    rw [rootQualifier?_eq hqualified, columnReference_eq_column hstored] at h
    cases h
    exact .inr (Sql.eq_of_calls_column .self hname htext)
  | @ordered _ _ key direction sql _ hqualified hstored h htext =>
    obtain ⟨field, hfield, _⟩ := exists_field hstored
    have hknown : m.entity.hasField key = true :=
      (Assoc.contains_eq_isSome _ _).trans (by rw [hfield, Option.isSome_some])
    have hsql : Calls (column m key (some m.tableName)) sql := by
      rw [orderTerm, rootQualifier?_eq hqualified, computed?_eq_none hstored, hknown] at h
      cases h
      exact .append .self (.word (by cases direction <;> decide) _)
    exact .inr (Sql.eq_of_calls_column hsql hname htext)
  | @matched _ _ _ _ _ j pair _ h hpair htext =>
    have hparent := (c.ensures_joinOf m _ _ _ _ _ _ _ h).2
    have hbefore : Sql.Piece.word " = " ∉ Sql.identifier j.path ++ .word "." :: Sql.identifier pair.1 := by
      unfold Sql.identifier
      split <;> split <;> simp
    have hequality : j.equality pair = Sql.identifier j.path ++ .word "." :: Sql.identifier pair.1 ++
        .word " = " :: (Sql.qualifier m.tableName ++ Sql.identifier pair.2) := by
      simp [Join.equality, hparent, Sql.qualifier_eq hname, Sql.identifier_eq hname]
    rw [hequality, Sql.behind_append hbefore] at htext
    exact .inr (Sql.eq_of_calls_column .self hname htext)
  | changed h => exact .inr ((Ddl.calls_toSql h).firstName_eq (Sql.isName_name _))
  | @indexed i guarded h =>
    exact .inr (h ▸ (Ddl.calls_createIndexSql c.dialect i guarded).firstName_eq (Sql.isName_name _))
  | @referenced key h =>
    exact .inr (h ▸ (Ddl.calls_foreignKeySql key).firstName_eq (Sql.isName_name _))

/-- Without a dot there is one text. -/
theorem WritesTable.render_eq {text : Sql} (h : c.WritesTable m text) (hname : m.tableName ≠ "")
    (hdot : '.' ∉ m.tableName.toList) : c.dialect.render text = c.dialect.render [.name m.tableName] := by
  rcases h.eq_or_eq hname with rfl | rfl
  · exact (c.dialect.render_path_eq_iff hname).2 hdot
  · rfl

/-- There are places of either kind: where rows are taken out, and where the table is dropped. -/
theorem notMem_of_render_eq (hname : m.tableName ≠ "")
    (h : ∀ first second, c.WritesTable m first → c.WritesTable m second →
      c.dialect.render first = c.dialect.render second) : '.' ∉ m.tableName.toList := by
  obtain ⟨sql, hsql⟩ := c.exists_removal m
  have hdrop : Ddl.table? c.dialect (.dropTable m.tableName false false) = some m.tableName := rfl
  have hsame := h _ _ (.written rfl hsql) (.changed hdrop)
  rw [(c.ensures_statement m rfl sql hsql).firstName_eq (Sql.isName_path hname),
    (Ddl.calls_toSql hdrop).firstName_eq (Sql.isName_name _)] at hsame
  exact (c.dialect.render_path_eq_iff hname).1 hsame

end Compiler

/-! ## The table of a history -/

namespace MigrationHistory

/-- The history's entity in its registry. -/
def member (table now : String) : Member := ⟨registry table now, entity table now⟩

/-- The statements by which a history is kept. What reads the names stands without its beginning. -/
structure IsKeptBy (d : Dialect) (table now name : String) (definition : TableDefinition)
    (read added removed : Sql) : Prop where
  definitionName : definition.table.name = table
  ensure : ensureStatements d table now = .ok [(Ddl.createTable definition true).render d]
  executed : executedStatement d table now =
    .ok (d.render (.word "SELECT " :: .name "name" :: .word " FROM " :: read))
  add : addStatement d table now name = .ok (d.render added)
  remove : removeStatement d table now name = .ok (d.render removed)
  /-- Each of the texts calls the history's table in one of its places. -/
  writesTable : ∀ sql ∈ [read, added, removed, (Ddl.createTable definition true).toSql d],
    (compiler d).WritesTable (member table now) (Sql.firstName sql)

variable (d : Dialect) (table now name : String)

theorem ensureStatements_eq : ∃ definition : TableDefinition, definition.table.name = table ∧
    ensureStatements d table now = .ok [(Ddl.createTable definition true).render d] := by
  obtain ⟨s, hs, ht⟩ : ∃ s, (registry table now).schema = .ok s ∧
      s.table? table = some ((member table now).table .verbatim) := ⟨_, rfl, Assoc.get?_insert_self _ _ _⟩
  refine ⟨{ table := (member table now).table .verbatim }, rfl, ?_⟩
  simp only [ensureStatements, hs, bind, Except.bind, ht]
  rfl

/-- A row is taken out by its name. -/
theorem exists_removeRows :
    ∃ sql, (compiler d).removeRows (member table now) (some (.id (.text name))) = .ok sql := by
  let m := member table now
  obtain ⟨p, hp⟩ : ∃ p, (compiler d).filterPredicate m (some [("name", .field (.value (.text name)))])
      { softDelete? := some false } = .ok p := ⟨_, rfl⟩
  have hrows : (compiler d).criterionClause m (some (.id (.text name))) { softDelete? := some false } =
      .ok (Compiler.clauseOf .where p) := by
    change ((compiler d).filterPredicate m (some [("name", .field (.value (.text name)))])
      { softDelete? := some false } >>= fun p => pure (Compiler.clauseOf .where p)) = _
    rw [hp]
    rfl
  refine ⟨.word "DELETE FROM " :: Sql.path table ++ Compiler.clauseOf .where p, ?_⟩
  rw [Compiler.removeRows, hrows]
  rfl

/-- A history is kept by statements that call its table by the path where they are about its rows. -/
theorem exists_isKeptBy : ∃ definition read added removed,
    IsKeptBy d table now name definition read added removed ∧
      ∀ sql ∈ [read, added, removed], Calls (Sql.path table) sql := by
  let m := member table now
  let query : Query :=
    { projection? := some (.items [.field "name"]), order? := some [("name", .direction .ascending)] }
  obtain ⟨definition, hname, hensure⟩ := ensureStatements_eq d table now
  obtain ⟨read, hread⟩ : ∃ read, (compiler d).find m query {} =
      .ok (.word "SELECT " :: .name "name" :: .word " FROM " :: read) := ⟨_, rfl⟩
  obtain ⟨added, hadded⟩ : ∃ added,
      (compiler d).insert m [Assoc.ofPairs [("name", .text name)]] = .ok added := ⟨_, rfl⟩
  obtain ⟨removed, hremoved⟩ := exists_removeRows d table now name
  have hexecuted : executedStatement d table now =
      ((compiler d).find m query {} >>= fun sql => pure (d.render sql)) := rfl
  have hadd : addStatement d table now name =
      ((compiler d).insert m [Assoc.ofPairs [("name", .text name)]] >>= fun sql => pure (d.render sql)) := rfl
  have hremove : removeStatement d table now name =
      ((compiler d).removeRows m (some (.id (.text name))) >>= fun sql => pure (d.render sql)) := rfl
  rw [hread] at hexecuted
  rw [hadded] at hadd
  rw [hremoved] at hremove
  have hfields : (compiler d).projectedFields m query.projection?
      (Compiler.rootQualifier? m query.projection? {}) false = .ok [.name "name"] := rfl
  have hplan : (compiler d).plan m query.projection? none = .ok .none := rfl
  have hinsert : (compiler d).statement m (.insert [Assoc.ofPairs [("name", .text name)]]) = .ok added := hadded
  have hdelete : (compiler d).statement m (.delete (some (.id (.text name))) none) = .ok removed := hremoved
  refine ⟨definition, read, added, removed, ⟨hname, hensure, hexecuted, hadd, hremove, ?_⟩, ?_⟩
  · simp only [List.forall_mem_cons, List.not_mem_nil, false_implies, implies_true, and_true]
    exact ⟨.read hfields hplan hread, .written rfl hinsert, .written rfl hdelete,
      .changed (congrArg some hname)⟩
  · simp only [List.forall_mem_cons, List.not_mem_nil, false_implies, implies_true, and_true]
    exact ⟨Compiler.calls_of_find _ m hfields hplan hread, Compiler.ensures_statement _ m rfl _ hinsert,
      Compiler.ensures_statement _ m rfl _ hdelete⟩

end MigrationHistory

/-! ## One name or two -/

/-- The places call the table of an entity alike if and only if its name has no dot. -/
theorem Compiler.render_writesTable_iff (c : Compiler) {m : Member} (hname : m.tableName ≠ "") :
    ((∀ first second, c.WritesTable m first → c.WritesTable m second →
        c.dialect.render first = c.dialect.render second) ↔ '.' ∉ m.tableName.toList) ∧
      (∀ s, m ∈ m.registry.members → m.registry.schema = .ok s → m.tableName ∈ s.tables.keys) ∧
      ∀ table now name : String, table ≠ "" → ∃ definition read added removed,
        MigrationHistory.IsKeptBy c.dialect table now name definition read added removed ∧
          ∀ sql ∈ [read, added, removed], (c.dialect.render (Sql.firstName sql) =
            c.dialect.render (Sql.firstName ((Ddl.createTable definition true).toSql c.dialect)) ↔
              '.' ∉ table.toList) := by
  refine ⟨⟨fun h => ?_, fun hdot first second hfirst hsecond => ?_⟩, fun s hm hs => ?_,
    fun table now name htable => ?_⟩
  · exact notMem_of_render_eq hname h
  · exact (hfirst.render_eq hname hdot).trans (hsecond.render_eq hname hdot).symm
  · exact Registry.tableNameBy_mem_keys hs m hm
  · obtain ⟨definition, read, added, removed, hkept, hpaths⟩ :=
      MigrationHistory.exists_isKeptBy c.dialect table now name
    refine ⟨definition, read, added, removed, hkept, fun sql hsql => ?_⟩
    have hdefinition : Ddl.table? c.dialect (.createTable definition true) = some table :=
      congrArg some hkept.definitionName
    rw [(hpaths sql hsql).firstName_eq (Sql.isName_path htable),
      (Ddl.calls_toSql hdefinition).firstName_eq (Sql.isName_name table)]
    exact c.dialect.render_path_eq_iff htable

/-- The usual name of a history's table has no dot. -/
theorem Compiler.render_writesTable_iff_history :
    let c := MigrationHistory.compiler .postgres
    let m := MigrationHistory.member MigrationHistory.defaultTable ""
    m.tableName ≠ "" ∧ ∀ first second, c.WritesTable m first → c.WritesTable m second →
      c.dialect.render first = c.dialect.render second :=
  ⟨by decide, (render_writesTable_iff (MigrationHistory.compiler .postgres) (by decide)).1.2 (by decide)⟩

/-- A history whose table has a dot in its name creates a table and reads another one. -/
theorem MigrationHistory.dotted_table :
    (¬ ∀ first second, (compiler .postgres).WritesTable (member "app.history" "") first →
        (compiler .postgres).WritesTable (member "app.history" "") second →
          (compiler .postgres).dialect.render first = (compiler .postgres).dialect.render second) ∧
      ensureStatements .postgres "app.history" "" = .ok
        ["CREATE TABLE IF NOT EXISTS \"app.history\" (\"name\" VARCHAR(255) PRIMARY KEY, " ++
          "\"executed_at\" TIMESTAMP NOT NULL)"] ∧
      executedStatement .postgres "app.history" "" =
        .ok "SELECT \"name\" FROM \"app\".\"history\" ORDER BY \"name\"" :=
  ⟨fun h => Compiler.notMem_of_render_eq (by decide) h (by decide), by decide +kernel, by decide +kernel⟩

end EntitySql
