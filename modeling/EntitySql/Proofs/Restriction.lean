import EntitySql.Proofs.Comparisons
import EntitySql.Proofs.Reading.Guard
/-!
# What a criterion restricts

Parts of a filter that come to nothing are dropped while it is compiled: lists of no operators, empty texts of raw
members, groups of such parts, and groups of nothing. Which parts come to something does not depend on how deep they
stand, so that whether an update or a deletion is restricted by its criterion is told by what the filter holds
(`Compiler.parts_ne_nil_iff`).
-/

namespace EntitySql

/-- Whether a request changes the rows that it is about. -/
def Request.isChange : Request → Bool
  | .update .. | .delete .. => true
  | _ => false

namespace Filter

variable {key : String} {value : FilterEntry} {list other : Filter}

theorem Holds.mono (hsub : list ⊆ other) (h : list.Holds key value) : other.Holds key value := by
  cases h with
  | entry h => exact .entry (hsub h)
  | group hgroup hitem h => exact .group (hsub hgroup) hitem h

end Filter

/-- Whether a raw member of a group has a text. -/
def RawSql.HasText (c : Compiler) (m : Member) (qualifier? : Option String) (sql : RawSql) : Prop :=
  ∃ text, c.rawText m.registry sql (qualifier?.getD "") = .ok text ∧ text ≠ ""

/-- Whether an entry by itself comes to something: a condition unless it has no operators, a search, a subquery, and a
group that has raw members with text. -/
def FilterEntry.Restricts (c : Compiler) (m : Member) (qualifier? : Option String) : FilterEntry → Prop
  | .field (.value _) => True
  | .field (.operators entries) => entries ≠ []
  | .group items => ∃ sql, .raw sql ∈ items ∧ sql.HasText c m qualifier?
  | .search _ => True
  | .subquery _ => True

/-- Whether a filter holds an entry, at its top level or inside of groups, that comes to something. -/
def Filter.Restricts (c : Compiler) (m : Member) (qualifier? : Option String) (filter : Filter) : Prop :=
  ∃ key value, filter.Holds key value ∧ value.Restricts c m qualifier?

/-- Whether a member of a group comes to something. -/
def FilterItem.Restricts (c : Compiler) (m : Member) (qualifier? : Option String) : FilterItem → Prop
  | .filter list => Filter.Restricts c m qualifier? list
  | .raw sql => sql.HasText c m qualifier?

/-- Whether a criterion comes to something. -/
def Criterion.Restricts (c : Compiler) (m : Member) (qualifier? : Option String) : Criterion → Prop
  | .id _ => True
  | .filter list => Filter.Restricts c m qualifier? list

namespace Filter.Restricts

variable {c : Compiler} {m : Member} {qualifier? : Option String} {list other : Filter}

theorem mono (hsub : list ⊆ other) (h : list.Restricts c m qualifier?) : other.Restricts c m qualifier? := by
  obtain ⟨key, value, hholds, hvalue⟩ := h
  exact ⟨key, value, hholds.mono hsub, hvalue⟩

theorem of_entry {key : String} {value : FilterEntry} (h : value.Restricts c m qualifier?) :
    Filter.Restricts c m qualifier? [(key, value)] := ⟨key, value, .entry (.head _), h⟩

theorem of_item {key : String} {items : List FilterItem} {item : FilterItem} (hitem : item ∈ items)
    (h : item.Restricts c m qualifier?) : Filter.Restricts c m qualifier? [(key, .group items)] := by
  cases item with
  | raw sql => exact of_entry ⟨sql, hitem, h⟩
  | filter list =>
    obtain ⟨name, value, hholds, hvalue⟩ := h
    exact ⟨name, value, .group (.head _) hitem hholds, hvalue⟩

end Filter.Restricts

namespace Compiler

variable {c : Compiler} {m : Member} {key : String} {qualifier? : Option String}

/-! ## Parts that come to something -/

theorem comparison_ne_nil {operator : FieldOperator} {v : Value} :
    Ensures (· ≠ []) (c.comparison m key qualifier? operator v) := by
  intro p hp
  obtain ⟨column, hcolumn, _⟩ := ok_of_bind_eq_ok hp
  obtain ⟨sql, rfl, _⟩ := ensures_isComparison hcolumn operator v p hp
  exact List.cons_ne_nil _ _

theorem operator_ne_nil (name : String) (argument : OperatorArgument) :
    Ensures (· ≠ []) (c.operator m key qualifier? name argument) := by
  cases argument with
  | value v =>
    refine .bind_any fun operator => ?_
    cases operator
    case negation => exact .bind_any fun _ => .pure (List.cons_ne_nil _ _)
    all_goals exact comparison_ne_nil
  | condition inner =>
    refine .bind_any fun operator => ?_
    cases operator
    case negation => exact .bind_any fun _ => .pure (List.cons_ne_nil _ _)
    all_goals exact .error _

/-- A condition comes to something unless it has no operators. -/
theorem condition_ne_nil_iff {condition : Condition} {p : Predicate}
    (h : c.condition m key qualifier? condition = .ok p) :
    p ≠ [] ↔ FilterEntry.Restricts c m qualifier? (.field condition) := by
  match condition with
  | .value v => exact iff_of_true (comparison_ne_nil p h) trivial
  | .operators [] =>
    cases h
    exact iff_of_false (fun h => h rfl) (fun h => h rfl)
  | .operators ((name, argument) :: rest) =>
    refine iff_of_true ?_ (List.cons_ne_nil _ _)
    obtain ⟨q, hq, hsub⟩ := exists_operator h (.head rest)
    rintro rfl
    exact operator_ne_nil name argument q hq (List.subset_nil.1 hsub)

theorem rawPredicate_ne_nil_iff {sql : RawSql} {p : Predicate} (h : c.rawPredicate m qualifier? sql = .ok p) :
    p ≠ [] ↔ sql.HasText c m qualifier? := by
  obtain ⟨text, htext, h⟩ := ok_of_bind_eq_ok h
  cases h
  have hiff : sql.HasText c m qualifier? ↔ text ≠ "" := by simp [RawSql.HasText, htext]
  rw [hiff]
  by_cases hempty : text = ""
  · simp [hempty]
  · simp [hempty, Predicate.ofAtom]

theorem groupPredicate_nil (connective : Connective) (grouped : Bool) : groupPredicate connective grouped [] = [] := rfl

theorem joinGrouped_nil (grouped disjunctive : Bool) : Predicate.joinGrouped grouped disjunctive [] = [] := by
  cases grouped <;> rfl

mutual

/-- Entries come to something only if one of them does, however deep it stands. -/
theorem restricts_of_entries : ∀ (list : List (String × FilterEntry)) {grouped : Bool} {ps : List Predicate},
    c.entries m qualifier? grouped list = .ok ps → ps ≠ [] → Filter.Restricts c m qualifier? list
  | [], _, _, h, hne => by
    cases h
    exact absurd rfl hne
  | (key, value) :: rest, _, _, h, hne => by
    obtain ⟨first, hfirst, h⟩ := ok_of_bind_eq_ok h
    obtain ⟨others, hothers, h⟩ := ok_of_bind_eq_ok h
    cases h
    cases first with
    | nil => exact (restricts_of_entries rest hothers hne).mono (List.subset_cons_self _ _)
    | cons t p => exact (restricts_of_entry value key hfirst (List.cons_ne_nil t p)).mono (by simp)

theorem restricts_of_entry : ∀ (value : FilterEntry) (key : String) {grouped : Bool} {p : Predicate},
    c.entry m qualifier? grouped key value = .ok p → p ≠ [] → Filter.Restricts c m qualifier? [(key, value)]
  | .search _, _, _, _, _, _ => .of_entry trivial
  | .subquery _, _, _, _, _, _ => .of_entry trivial
  | .field condition, _, _, _, h, hne => by
    rw [entry] at h
    split at h
    · cases h
    · exact .of_entry ((condition_ne_nil_iff h).1 hne)
  | .group items, _, _, _, h, hne => by
    rw [entry] at h
    split at h
    · cases h
    · obtain ⟨ps, hps, h⟩ := ok_of_bind_eq_ok h
      cases h
      have hsome : ps ≠ [] := by
        rintro rfl
        exact hne (groupPredicate_nil _ _)
      obtain ⟨item, hitem, hrestricts⟩ := restricts_of_groupItems items hps hsome
      exact .of_item hitem hrestricts

theorem restricts_of_groupItems : ∀ (items : List FilterItem) {grouped : Bool} {ps : List Predicate},
    c.groupItems m qualifier? grouped items = .ok ps → ps ≠ [] → ∃ item ∈ items, item.Restricts c m qualifier?
  | [], _, _, h, hne => by
    cases h
    exact absurd rfl hne
  | item :: rest, _, _, h, hne => by
    obtain ⟨first, hfirst, h⟩ := ok_of_bind_eq_ok h
    obtain ⟨others, hothers, h⟩ := ok_of_bind_eq_ok h
    cases h
    cases first with
    | nil =>
      obtain ⟨other, hother, hrestricts⟩ := restricts_of_groupItems rest hothers hne
      exact ⟨other, .tail _ hother, hrestricts⟩
    | cons t p => exact ⟨item, .head _, restricts_of_groupItem item hfirst (List.cons_ne_nil t p)⟩

theorem restricts_of_groupItem : ∀ (item : FilterItem) {grouped : Bool} {p : Predicate},
    c.groupItem m qualifier? grouped item = .ok p → p ≠ [] → item.Restricts c m qualifier?
  | .raw _, _, _, h, hne => (rawPredicate_ne_nil_iff h).1 hne
  | .filter list, _, _, h, hne => by
    obtain ⟨ps, hps, h⟩ := ok_of_bind_eq_ok h
    cases h
    refine restricts_of_entries list hps ?_
    rintro rfl
    exact hne (joinGrouped_nil _ _)

end

/-- An entry that comes to something leaves tokens. -/
theorem entry_ne_nil_of_restricts {value : FilterEntry} (hrestricts : value.Restricts c m qualifier?) {grouped : Bool}
    {p : Predicate} (h : c.entry m qualifier? grouped key value = .ok p) : p ≠ [] := by
  cases value with
  | field condition =>
    rw [entry] at h
    split at h
    · cases h
    · exact (condition_ne_nil_iff h).2 hrestricts
  | search request =>
    rw [entry] at h
    split at h
    · cases h
      exact List.cons_ne_nil _ _
    · cases h
  | subquery sql =>
    rw [entry] at h
    split at h
    · obtain ⟨text, _, h⟩ := ok_of_bind_eq_ok h
      cases h
      exact List.cons_ne_nil _ _
    · split at h
      · obtain ⟨text, _, h⟩ := ok_of_bind_eq_ok h
        cases h
        exact List.cons_ne_nil _ _
      · cases h
  | group items =>
    obtain ⟨sql, hmem, htext⟩ := hrestricts
    rw [entry] at h
    split at h
    · cases h
    · obtain ⟨ps, hps, h⟩ := ok_of_bind_eq_ok h
      cases h
      rw [groupItems_eq_mapM] at hps
      obtain ⟨q, hq, hpart⟩ := exists_part hps hmem
      obtain ⟨t, ht⟩ := List.exists_mem_of_ne_nil q ((rawPredicate_ne_nil_iff hq).2 htext)
      obtain ⟨part, hpartMem, ht⟩ := hpart t ht
      exact List.ne_nil_of_mem (mem_groupPredicate hpartMem ht)

/-- Of a filter there are predicates if and only if it holds an entry that comes to something. -/
theorem parts_ne_nil_iff {list : Filter} {grouped : Bool} {ps : List Predicate}
    (h : c.entries m qualifier? grouped list = .ok ps) : ps ≠ [] ↔ Filter.Restricts c m qualifier? list := by
  refine ⟨restricts_of_entries list h, fun ⟨key, value, hholds, hrestricts⟩ => ?_⟩
  obtain ⟨each, p, hp, hpart⟩ := exists_entry_of_holds hholds h
  obtain ⟨t, ht⟩ := List.exists_mem_of_ne_nil p (entry_ne_nil_of_restricts hrestricts hp)
  obtain ⟨part, hpartMem, _⟩ := hpart t ht
  exact List.ne_nil_of_mem hpartMem

theorem ne_nil_of_mem_parts {list : Filter} {grouped : Bool} {ps : List Predicate}
    (h : c.entries m qualifier? grouped list = .ok ps) : ∀ p ∈ ps, p ≠ [] := by
  rw [entries_eq_mapM] at h
  obtain ⟨all, _, h⟩ := ok_of_bind_eq_ok h
  cases h
  intro p hp
  simpa using (List.mem_filter.1 hp).2

/-! ## Statements that change rows -/

/-- A statement that changes all rows of a table. -/
inductive ChangesAll (m : Member) : Sql → Prop
  | update (sets : List Sql) :
      ChangesAll m (.word "UPDATE " :: Sql.path m.tableName ++ .word " SET " :: Sql.commaList sets)
  | delete : ChangesAll m (.word "DELETE FROM " :: Sql.path m.tableName)

/-- A statement that changes rows is one that changes all rows with the clause behind it. -/
def ChangesRows (c : Compiler) (m : Member) (criterion? : Option Criterion) (options : FilterOptions) (sql : Sql) :
    Prop :=
  ∃ whole clause, ChangesAll m whole ∧ c.criterionClause m criterion? options = .ok clause ∧ sql = whole ++ clause

theorem ensures_changesRows_updateRows (c : Compiler) (m : Member) (criterion? : Option Criterion) (record : Record)
    (softDelete? : Option Bool) :
    Ensures (c.ChangesRows m criterion? { softDelete? }) (c.updateRows m criterion? record softDelete?) := by
  refine .bind_any fun sets => ?_
  split
  · exact .error _
  · exact .bind_ok fun rows hrows => .pure ⟨_, rows, .update sets, hrows, rfl⟩

theorem ensures_changesRows_removeRows (c : Compiler) (m : Member) (criterion? : Option Criterion) :
    Ensures (c.ChangesRows m criterion? { softDelete? := some false }) (c.removeRows m criterion?) :=
  .bind_ok fun rows hrows => .pure ⟨_, rows, .delete, hrows, rfl⟩

theorem ensures_changesRows {r : Request} (hchange : r.isChange = true) {criterion? : Option Criterion}
    {options : FilterOptions} (hrows : r.rows? m = some (criterion?, options)) :
    Ensures (c.ChangesRows m criterion? options) (c.statement m r) := by
  cases r with
  | find _ _ | count _ _ | insert _ | upsert _ _ => cases hchange
  | update rows? record softDelete? =>
    obtain ⟨rfl, rfl⟩ := Prod.mk.inj (Option.some.inj hrows)
    exact ensures_changesRows_updateRows c m rows? _ softDelete?
  | delete rows? softDelete? =>
    obtain ⟨rfl, rfl⟩ := Prod.mk.inj (Option.some.inj hrows)
    unfold statement delete
    cases m.entity.softDelete? with
    | none =>
      rcases softDelete? with _ | _ | _
      · exact ensures_changesRows_removeRows c m rows?
      · exact ensures_changesRows_removeRows c m rows?
      · exact .error _
    | some key =>
      rcases softDelete? with _ | _ | _
      · exact ensures_changesRows_updateRows c m rows? _ none
      · exact ensures_changesRows_removeRows c m rows?
      · exact ensures_changesRows_updateRows c m rows? _ (some true)

/-- What the clause of a criterion consists of: the predicates of the filter, of which there are some if and only if
the criterion comes to something, and the guard against deleted rows. -/
structure IsRestriction (c : Compiler) (m : Member) (criterion : Criterion) (options : FilterOptions)
    (parts guard : List Predicate) : Prop where
  filter : ∃ grouped, c.entries m options.qualifier? grouped (filterOf m criterion) = .ok parts
  guarded : ∃ grouped, c.entries m options.qualifier? grouped
    (softDeleteGuard m (some (filterOf m criterion)) options) = .ok guard
  nonempty : ∀ part ∈ parts, part ≠ []
  restricts : parts ≠ [] ↔ criterion.Restricts c m options.qualifier?

theorem restricts_filterOf (criterion : Criterion) :
    Filter.Restricts c m qualifier? (filterOf m criterion) ↔ criterion.Restricts c m qualifier? := by
  cases criterion with
  | id v => exact iff_of_true (.of_entry trivial) trivial
  | filter list => exact Iff.rfl

theorem join_ne_nil {part : Predicate} {parts : List Predicate} (h : part ∈ parts) (hne : part ≠ []) :
    Predicate.join false parts ≠ [] := by
  obtain ⟨t, ht⟩ := List.exists_mem_of_ne_nil part hne
  exact List.ne_nil_of_mem (Predicate.mem_join false h ht)

/-- The clause of a criterion that comes to something is a `WHERE` clause that starts with the predicates of the filter;
else it is the clause of the guard. -/
theorem exists_isRestriction {criterion : Criterion} {options : FilterOptions} (hclause : options.clause = .where)
    (hgrouped : options.grouped = false) {clause : Sql}
    (h : c.criterionClause m (some criterion) options = .ok clause) :
    ∃ parts guard, c.IsRestriction m criterion options parts guard ∧
      (criterion.Restricts c m options.qualifier? →
        clause = .word " WHERE " :: (Predicate.join false (parts ++ guard)).toSql) ∧
      (¬criterion.Restricts c m options.qualifier? → clause = clauseOf .where (Predicate.join false guard)) := by
  obtain ⟨p, hp, h⟩ := ok_of_bind_eq_ok h
  cases h
  obtain ⟨ps, hps, hp⟩ := ok_of_bind_eq_ok hp
  cases hp
  rw [Option.map_some, Option.getD_some, entries_append] at hps
  obtain ⟨parts, hparts, hps⟩ := ok_of_bind_eq_ok hps
  obtain ⟨guard, hguard, hps⟩ := ok_of_bind_eq_ok hps
  cases hps
  have hrestricts := (parts_ne_nil_iff hparts).trans (restricts_filterOf criterion)
  have hjoin : Predicate.joinGrouped options.grouped false (parts ++ guard) =
      Predicate.join false (parts ++ guard) := by
    rw [hgrouped]
    rfl
  refine ⟨parts, guard, ⟨⟨_, hparts⟩, ⟨_, hguard⟩, ne_nil_of_mem_parts hparts, hrestricts⟩, fun hsome => ?_,
    fun hnone => ?_⟩
  · obtain ⟨part, hpart⟩ := List.exists_mem_of_ne_nil parts (hrestricts.2 hsome)
    have hne := join_ne_nil (List.mem_append_left guard hpart) (ne_nil_of_mem_parts hparts part hpart)
    rw [hclause, hjoin, clauseOf, if_neg (by simpa using hne)]
  · obtain rfl : parts = [] := by_contra fun hne => hnone (hrestricts.1 hne)
    rw [hclause, hjoin, List.nil_append]

/-- Updates and deletions change all rows but for the clause of their criterion. There is a `WHERE` clause with the
predicates of the filter, of which there is at least one, if and only if the criterion comes to something. -/
theorem restricted_of_isChange {r : Request} (hchange : r.isChange = true) {criterion : Criterion}
    {options : FilterOptions} (hrows : r.rows? m = some (some criterion, options)) {sql : Sql}
    (h : c.statement m r = .ok sql) :
    ∃ whole parts guard, ChangesAll m whole ∧ c.IsRestriction m criterion options parts guard ∧
      (criterion.Restricts c m options.qualifier? →
        sql = whole ++ .word " WHERE " :: (Predicate.join false (parts ++ guard)).toSql) ∧
      (¬criterion.Restricts c m options.qualifier? → sql = whole ++ clauseOf .where (Predicate.join false guard)) := by
  obtain ⟨hwhere, hgrouped⟩ := Request.rows?_where hrows
  obtain ⟨whole, clause, hwhole, hclause, rfl⟩ := ensures_changesRows hchange hrows sql h
  obtain ⟨parts, guard, hrestriction, hsome, hnone⟩ := exists_isRestriction hwhere hgrouped hclause
  exact ⟨whole, parts, guard, hwhole, hrestriction, fun h => by rw [hsome h], fun h => by rw [hnone h]⟩

/-- Items are renamed on a condition about no names, which stands in a group beside an empty filter. -/
theorem restricted_of_isChange_items :
    let item : Entity :=
      { name := "Item", fields := Assoc.ofPairs [("id", { type := .integer }), ("name", { type := .string })] }
    let m : Member := ⟨Registry.ofList [item], item⟩
    let c : Compiler := { dialect := .mysql, expander := fun _ _ => .ok "" }
    let filter : Filter :=
      [("$or", .group [.filter [], .filter [("name", .field (.operators [("$in", .value (.list []))]))]])]
    let r : Request := .update (some (.filter filter)) (Assoc.ofPairs [("name", .text "none")]) none
    ∃ sql whole parts guard, c.statement m r = .ok sql ∧
      c.dialect.render sql = "UPDATE `Item` SET `name` = 'none' WHERE 1 = 0" ∧
      Filter.Restricts c m none filter ∧ ChangesAll m whole ∧ parts ≠ [] ∧
      sql = whole ++ .word " WHERE " :: (Predicate.join false (parts ++ guard)).toSql := by
  intro item m c filter r
  have hstatement : ((c.statement m r).toOption.map c.dialect.render) =
      some "UPDATE `Item` SET `name` = 'none' WHERE 1 = 0" := by decide +kernel
  obtain ⟨sql, hsql, htext⟩ := exists_of_map_toOption_eq_some hstatement
  have hrestricts : Filter.Restricts c m none filter :=
    ⟨_, _, .group (.head _) (.tail _ (.head _)) (.entry (.head _)), List.cons_ne_nil _ _⟩
  obtain ⟨whole, parts, guard, hwhole, hrestriction, hsome, _⟩ := restricted_of_isChange rfl rfl hsql
  exact ⟨sql, whole, parts, guard, hsql, htext, hrestricts, hwhole, hrestriction.restricts.2 hrestricts,
    hsome hrestricts⟩

/-- A deletion by a filter that is not empty, but whose group is, takes out all items. -/
theorem delete_of_empty_group :
    let item : Entity := { name := "Item", fields := Assoc.ofPairs [("id", { type := .integer })] }
    let m : Member := ⟨Registry.ofList [item], item⟩
    let c : Compiler := { dialect := .mysql, expander := fun _ _ => .ok "" }
    let filter : Filter := [("$or", .group [])]
    filter ≠ [] ∧ (c.delete m (some (.filter filter))).map c.dialect.render = .ok "DELETE FROM `Item`" := by
  intro item m c filter
  exact ⟨List.cons_ne_nil _ _, by decide +kernel⟩

end Compiler

end EntitySql
