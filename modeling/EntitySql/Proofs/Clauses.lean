import EntitySql.Compile.Find
import EntitySql.Proofs.Joins.Plan
/-!
# Clauses of reading statements

The statement of a query is put together from clauses, each of which is compiled on its own. A count has the
clauses of a query of its own, which asks for the number of rows and for no relation. `Compiler.counts_iff` says
when it counts the rows that the query reads.
-/

namespace EntitySql

/-- The clauses of a statement that reads rows. -/
structure ReadClauses where
  /-- What is read of the rows of the table, and of each joined relation. -/
  fields : List Sql
  table : Sql
  joins : Sql
  rows : Sql
  group : Sql
  having : Sql
  order : Sql
  page : Sql

/-- The statement of the clauses. -/
def ReadClauses.toSql (s : ReadClauses) : Sql :=
  .word "SELECT " :: Sql.commaList s.fields ++ .word " FROM " :: s.table ++ s.joins ++ s.rows ++ s.group ++
    s.having ++ s.order ++ s.page

namespace Query

/-- The query for all rows in no order. -/
def unpaged (query : Query) : Query := { query with order? := none, limit? := none, skip? := none }

/-- The query for the number of rows. -/
def counting (query : Query) : Query :=
  { query.unpaged with projection? := some Compiler.countProjection }

end Query

namespace Compiler

variable {c : Compiler} {m : Member} {query : Query} {options : FindOptions}

/-- The clauses of the statement of a query. -/
def readClauses (c : Compiler) (m : Member) (query : Query) (options : FindOptions) :
    Except QueryError ReadClauses := do
  let qualifier? := rootQualifier? m query.projection? options
  let fields ← c.projectedFields m query.projection? qualifier? false
  let plan ← c.plan m query.projection? none
  let rows ← c.criterionClause m query.criterion? { qualifier?, softDelete? := options.softDelete? }
  let group ← c.groupClause m query.group qualifier?
  let having ← c.filterClause m query.having?
    { qualifier?, clause := .having, softDelete? := some false }
  let order ← c.orderClause m query.order? qualifier?
  return {
    fields := fields :: plan.fields, table := Sql.path m.tableName, joins := plan.tables,
    rows, group, having, order, page := c.dialect.page query.limit? query.skip? }

/-- The statement of a query is that of its clauses. -/
theorem find_eq (c : Compiler) (m : Member) (query : Query) (options : FindOptions) :
    c.find m query options = do return (← c.readClauses m query options).toSql := by
  simp only [find, selection, criteria, readClauses, bind_assoc, pure_bind, ReadClauses.toSql, List.append_assoc,
    List.cons_append]

theorem count_eq (c : Compiler) (m : Member) (query : Query) (options : FindOptions) :
    c.count m query options = c.find m query.counting options := rfl

/-! ## What clauses say -/

/-- Whether the clauses say what the query demands of the rows and groups, about columns behind the
qualifier. -/
structure Demands (c : Compiler) (m : Member) (query : Query) (options : FindOptions)
    (qualifier? : Option String) (s : ReadClauses) : Prop where
  rows : c.criterionClause m query.criterion? { qualifier?, softDelete? := options.softDelete? } = .ok s.rows
  group : c.groupClause m query.group qualifier? = .ok s.group
  having : c.filterClause m query.having? { qualifier?, clause := .having, softDelete? := some false } =
    .ok s.having

/-- The clauses of a query without order and page. -/
structure IsUnpaged (c : Compiler) (m : Member) (query : Query) (options : FindOptions)
    (s : ReadClauses) : Prop where
  demands : c.Demands m query options (rootQualifier? m query.projection? options) s
  table : s.table = Sql.path m.tableName
  order : s.order = []
  page : s.page = []

theorem ensures_readClauses_unpaged (c : Compiler) (m : Member) (query : Query) (options : FindOptions) :
    Ensures (fun s =>
      (∃ fields plan, c.projectedFields m query.projection? (rootQualifier? m query.projection? options) false =
        .ok fields ∧ c.plan m query.projection? none = .ok plan ∧ s.fields = fields :: plan.fields ∧
        s.joins = plan.tables) ∧ c.IsUnpaged m query options s)
      (c.readClauses m query.unpaged options) := by
  refine .bind_ok fun fields hfields => .bind_ok fun plan hplan => .bind_ok fun rows hrows =>
    .bind_ok fun group hgroup => .bind_ok fun having hhaving => .bind_ok fun order horder => .pure ?_
  refine ⟨⟨fields, plan, hfields, hplan, rfl, rfl⟩, ⟨hrows, hgroup, hhaving⟩, rfl, ?_, ?_⟩
  · cases horder
    rfl
  · cases c.dialect <;> rfl

/-! ## Counts -/

/-- The selected relations whose rows are joined. -/
def joinedRelations (m : Member) (projection? : Option Projection) : List ReachedRelation :=
  (m.reached (projection?.toList.flatMap Projection.selected)).filter (·.isToOne)

/-- The number of rows. -/
def countField : Sql := [.raw "COUNT(*)", .word " ", .name "count"]

/-- Whether the clauses ask for nothing but the number of the rows that other clauses read. -/
structure Counts (counting reading : ReadClauses) : Prop where
  fields : counting.fields = [countField]
  table : counting.table = reading.table
  joins : counting.joins = reading.joins

/-- A plan has as many joins as there are relations to join. -/
theorem tables_eq_nil_iff {projection? : Option Projection} {plan : JoinPlan}
    (h : c.plan m projection? none = .ok plan) : plan.tables = [] ↔ joinedRelations m projection? = [] := by
  have hlength : (joinedRelations m projection?).length = plan.joins.length := by
    rw [joinedRelations, (covers_of_plan h).joins.length_eq, List.length_map]
  rw [JoinPlan.tables, List.flatMap_eq_nil_iff, ← List.length_eq_zero_iff, hlength, List.length_eq_zero_iff]
  exact ⟨fun h => List.eq_nil_iff_forall_not_mem.2 fun j hj => List.cons_ne_nil _ _ (h j hj), by simp +contextual⟩

/-- Nothing but the number of rows is read where nothing qualifies the columns; else there is the id. -/
theorem ensures_projectedFields_count (qualifier? : Option String) :
    Ensures (fun fields => fields = countField ↔ qualifier? = none)
      (c.projectedFields m (some countProjection) qualifier? false) := by
  cases qualifier? with
  | none => exact .pure (iff_of_true rfl rfl)
  | some name =>
    refine .bind_ok fun columns hcolumns => .pure (iff_of_false (fun hfields => ?_) (Option.some_ne_none name))
    have hitems : withId m (projectedItems m (some countProjection)) =
        [.field m.entity.id, .raw { body := .literal "COUNT(*)", alias? := some "count" }] := rfl
    rw [Option.isSome_some, Option.isSome_some, Bool.and_self, if_pos rfl, hitems, List.mapM_cons] at hcolumns
    obtain ⟨id, _, hcolumns⟩ := ok_of_bind_eq_ok hcolumns
    cases hcolumns
    have hname : Sql.identifier "count" = [.name "count"] := rfl
    have hlength := congrArg List.length hfields
    simp [Sql.commaList, Sql.join, List.intercalate, countField, hname] at hlength

theorem rootQualifier?_count (m : Member) (options : FindOptions) :
    rootQualifier? m (some countProjection) options = none ↔
      options.qualifier? = none ∧ options.qualified = false := by
  rw [rootQualifier?]
  cases options.qualifier? with
  | none => cases options.qualified <;> simp [selectsRelation, countProjection]
  | some name => simp

/-- The root is called by the same name in both statements, unless only the one that reads rows has to tell it from
relations. -/
theorem rootQualifier?_count_eq_or (m : Member) (projection? : Option Projection) (options : FindOptions) :
    rootQualifier? m (some countProjection) options = rootQualifier? m projection? options ∨
      rootQualifier? m (some countProjection) options = none ∧
        rootQualifier? m projection? options = some m.tableName ∧ selectsRelation m projection? = true := by
  simp only [rootQualifier?]
  cases options.qualifier? with
  | some name => exact .inl rfl
  | none =>
    cases options.qualified with
    | true => exact .inl rfl
    | false =>
      cases selectsRelation m projection? with
      | true => exact .inr ⟨rfl, rfl, rfl⟩
      | false => exact .inl rfl

/-- A count has the demands of the query without order and page, about columns of the same rows. It asks for
nothing but the number of the rows that the query reads if and only if columns need not be qualified and the
query joins no relation. -/
theorem counts_iff {counted found : Sql} (hcount : c.count m query options = .ok counted)
    (hfind : c.find m query.unpaged options = .ok found) :
    ∃ counting reading, c.readClauses m query.counting options = .ok counting ∧
      c.readClauses m query.unpaged options = .ok reading ∧
      counted = counting.toSql ∧ found = reading.toSql ∧
      (∃ qualifier? qualifier'?, c.Demands m query options qualifier? counting ∧
        c.Demands m query options qualifier'? reading ∧
        (qualifier? = qualifier'? ∨ qualifier? = none ∧ qualifier'? = some m.tableName ∧
          selectsRelation m query.projection? = true)) ∧
      counting.order ++ counting.page = [] ∧ reading.order ++ reading.page = [] ∧
      (Counts counting reading ↔ options.qualifier? = none ∧ options.qualified = false ∧
        joinedRelations m query.projection? = []) := by
  rw [count_eq, find_eq] at hcount
  rw [find_eq] at hfind
  obtain ⟨counting, hcounting, hcount⟩ := ok_of_bind_eq_ok hcount
  obtain ⟨reading, hreading, hfind⟩ := ok_of_bind_eq_ok hfind
  cases hcount
  cases hfind
  obtain ⟨⟨fields, plan, hfields, hplan, hcountFields, hcountJoins⟩, hcountUnpaged⟩ :=
    ensures_readClauses_unpaged c m query.counting options counting hcounting
  obtain ⟨⟨_, joined, _, hjoined, _, hjoins⟩, hunpaged⟩ :=
    ensures_readClauses_unpaged c m query options reading hreading
  cases hplan
  refine ⟨counting, reading, hcounting, hreading, rfl, rfl,
    ⟨_, _, ?_, hunpaged.demands, rootQualifier?_count_eq_or m query.projection? options⟩, ?_, ?_, ?_⟩
  · obtain ⟨hrows, hgroup, hhaving⟩ := hcountUnpaged.demands
    exact ⟨hrows, hgroup, hhaving⟩
  · rw [hcountUnpaged.order, hcountUnpaged.page, List.append_nil]
  · rw [hunpaged.order, hunpaged.page, List.append_nil]
  · have hfieldsIff : counting.fields = [countField] ↔ options.qualifier? = none ∧ options.qualified = false := by
      have hfield : fields = countField ↔ rootQualifier? m (some countProjection) options = none :=
        ensures_projectedFields_count _ fields hfields
      rw [hcountFields, ← rootQualifier?_count m options, ← hfield]
      simp [JoinPlan.none]
    have hjoinsIff : counting.joins = reading.joins ↔ joinedRelations m query.projection? = [] := by
      rw [hcountJoins, hjoins, eq_comm]
      exact tables_eq_nil_iff hjoined
    have htable : counting.table = reading.table := hcountUnpaged.table.trans hunpaged.table.symm
    rw [← and_assoc, ← hfieldsIff, ← hjoinsIff]
    exact ⟨fun h => ⟨h.fields, h.joins⟩, fun h => ⟨h.1, htable, h.2⟩⟩

/-- Units of one kind, which are read by name. -/
theorem counts_iff_units :
    let unit : Entity :=
      { name := "unit"
        fields := Assoc.ofPairs [("id", { type := .integer }), ("kind", { type := .string })] }
    let m : Member := ⟨Registry.ofList [unit], unit⟩
    let c : Compiler := { dialect := .mysql, expander := fun _ _ => .ok "" }
    let query : Query :=
      { projection? := some (.items [.field "kind"])
        criterion? := some (.filter [("kind", .field (.value (.text "mass")))])
        order? := some [("kind", .direction .ascending)], limit? := some 3 }
    ∃ counted found counting reading, c.count m query = .ok counted ∧ c.find m query.unpaged = .ok found ∧
      counted = counting.toSql ∧ found = reading.toSql ∧ Counts counting reading ∧
      c.dialect.render counted = "SELECT COUNT(*) `count` FROM `unit` WHERE `kind` = 'mass'" := by
  intro unit m c query
  have hcount : ((c.count m query).toOption.map c.dialect.render) =
      some "SELECT COUNT(*) `count` FROM `unit` WHERE `kind` = 'mass'" := by decide +kernel
  have hfind : (c.find m query.unpaged).toOption.isSome = true := by decide +kernel
  obtain ⟨counted, hcounted, htext⟩ := Option.map_eq_some_iff.1 hcount
  obtain ⟨found, hfound⟩ := Option.isSome_iff_exists.1 hfind
  have hcounted := toOption_eq_some_iff.1 hcounted
  have hfound := toOption_eq_some_iff.1 hfound
  obtain ⟨counting, reading, _, _, hcounting, hreading, _, _, _, hcounts⟩ := counts_iff hcounted hfound
  exact ⟨counted, found, counting, reading, hcounted, hfound, hcounting, hreading, hcounts.2 ⟨rfl, rfl, rfl⟩, htext⟩

/-- The count of items by their unit reads the id as well, and names the unit without joining it. -/
theorem count_of_joined_items :
    let id : Field := { type := .integer }
    let item : Entity :=
      { name := "Item", fields := Assoc.ofPairs [("id", id), ("name", { type := .string }), ("unitId", id)]
        relations := Assoc.ofPairs [
          ("unit", { entity := "Unit", cardinality := .manyToOne, keyPairs := [⟨"unitId", "id"⟩] })] }
    let unit : Entity :=
      { name := "Unit", fields := Assoc.ofPairs [("id", id), ("name", { type := .string })] }
    let m : Member := ⟨Registry.ofList [item, unit], item⟩
    let c : Compiler := { dialect := .mysql, expander := fun _ _ => .ok "" }
    let query : Query :=
      { projection? := some (.map [("name", .flag true),
          ("unit", .relation { projection? := some (.items [.field "name"]) })])
        criterion? := some (.filter [("unit.name", .field (.value (.text "kg")))]) }
    let options : FindOptions := { qualified := true }
    (c.count m query options).map c.dialect.render =
        .ok "SELECT `Item`.`id`, COUNT(*) `count` FROM `Item` WHERE `unit`.`name` = 'kg'" ∧
      (c.find m query.unpaged options).map c.dialect.render =
        .ok ("SELECT `Item`.`id`, `Item`.`name`, `unit`.`id` `unit.id`, `unit`.`name` `unit.name` FROM `Item` " ++
          "LEFT JOIN `Unit` `unit` ON `unit`.`id` = `Item`.`unitId` WHERE `unit`.`name` = 'kg'") := by
  intro id item unit m c query options
  exact ⟨by decide +kernel, by decide +kernel⟩

end Compiler

end EntitySql
