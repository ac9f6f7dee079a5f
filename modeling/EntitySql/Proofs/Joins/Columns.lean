import EntitySql.Compile.Find
import EntitySql.Proofs.Comparisons
import EntitySql.Proofs.Joins.Path
/-!
# Columns of joined rows

Filters and orders of an entity name the columns of its joined relations in ways of their own: a filter by a
dotted key, at its top level or inside of groups, an order by nested terms. `Compiler.refersTo_column` says that
both arrive at the column behind the alias that the join introduces. Only keys that begin with a dollar sign
are no field keys in filters, and a path that starts with such a key cannot be compared.
-/

namespace EntitySql

/-! ## Places in orders -/

/-- Whether an order sorts by a field at the end of a path of relations. -/
inductive OrderBy.Sorts (field : String) (direction : Direction) : List String → OrderBy → Prop
  | direction {terms : OrderBy} (h : (field, .direction direction) ∈ terms) : Sorts field direction [] terms
  | nested {terms inner : OrderBy} {key : String} {keys : List String} (h : (key, .nested inner) ∈ terms)
      (hinner : Sorts field direction keys inner) : Sorts field direction (key :: keys) terms

/-- The order by a field at the end of a path of relations. -/
def OrderBy.along (field : String) (direction : Direction) : List String → OrderBy
  | [] => [(field, .direction direction)]
  | key :: keys => [(key, .nested (along field direction keys))]

namespace Compiler

variable {c : Compiler} {m : Member} {key : String} {qualifier? : Option String}

/-! ## Orders -/

theorem exists_orderTerm {terms : OrderBy} {path? : Option String} {columns : List Sql}
    (h : c.orderTerms m qualifier? path? terms = .ok columns) {term : OrderTerm} (hmem : (key, term) ∈ terms) :
    ∃ first, c.orderTerm m qualifier? path? key term = .ok first ∧ first ⊆ columns := by
  induction terms generalizing columns with
  | nil => cases hmem
  | cons entry rest ih =>
    obtain ⟨first, hfirst, h⟩ := ok_of_bind_eq_ok h
    obtain ⟨others, hothers, h⟩ := ok_of_bind_eq_ok h
    cases h
    rcases List.mem_cons.1 hmem with rfl | hmem
    · exact ⟨first, hfirst, List.subset_append_left _ _⟩
    · obtain ⟨found, hfound, hsub⟩ := ih hothers hmem
      exact ⟨found, hfound, List.Subset.trans hsub (List.subset_append_right _ _)⟩

/-- A stored field of a relation is ordered by its column behind the path. -/
theorem orderTerm_direction {field : String} (hstored : m.entity.isStored field = true) (path : String)
    (direction : Direction) :
    c.orderTerm m qualifier? (some path) field (.direction direction) =
      .ok [column m field (some path) ++ [.word direction.sqlSuffix]] := by
  obtain ⟨stored, hfield, _⟩ := exists_field hstored
  have hknown : m.entity.hasField field = true :=
    (Assoc.contains_eq_isSome _ _).trans (by rw [hfield, Option.isSome_some])
  simp only [orderTerm, computed?_eq_none hstored, hknown]
  rfl

theorem orderTerm_nested {target : Member} {path? : Option String} (h : m.joined? key = some target)
    (terms : OrderBy) :
    c.orderTerm m qualifier? path? key (.nested terms) =
      c.orderTerms target qualifier? (some (aliasPath path? key)) terms := by
  obtain ⟨_, _, _, hrelated⟩ := Member.joined?_eq_some_iff.1 h
  rw [orderTerm, hrelated]
  rfl

/-- The order along relations to one row is that by the column at their end. -/
theorem orderTerms_along {target : Member} {field : String} (hstored : target.entity.isStored field = true)
    (direction : Direction) {keys : List String} (htarget : m.follow? keys = some target)
    (path? : Option String) (hpath : path?.toList ++ keys ≠ []) :
    c.orderTerms m qualifier? path? (OrderBy.along field direction keys) =
      .ok [column target field (some (".".intercalate (path?.toList ++ keys))) ++
        [.word direction.sqlSuffix]] := by
  induction keys generalizing m path? with
  | nil =>
    cases htarget
    cases path? with
    | none => exact absurd rfl hpath
    | some path =>
      rw [OrderBy.along, orderTerms, orderTerm_direction hstored]
      rfl
  | cons key rest ih =>
    obtain ⟨next, hnext, htarget⟩ := Option.bind_eq_some_iff.1 htarget
    have hbelow := ih htarget (some (aliasPath path? key)) (List.cons_ne_nil _ _)
    rw [OrderBy.along, orderTerms, orderTerm_nested hnext, hbelow, Option.toList_some, List.singleton_append,
      intercalate_aliasPath]
    rfl

/-- In an order every term along relations to one row is the column at its end. -/
theorem mem_orderTerms {target : Member} {field : String} (hstored : target.entity.isStored field = true)
    {direction : Direction} {keys : List String} {terms : OrderBy} (hsorts : terms.Sorts field direction keys)
    (htarget : m.follow? keys = some target) (path? : Option String) (hpath : path?.toList ++ keys ≠ [])
    {columns : List Sql} (h : c.orderTerms m qualifier? path? terms = .ok columns) :
    column target field (some (".".intercalate (path?.toList ++ keys))) ++ [.word direction.sqlSuffix]
      ∈ columns := by
  induction hsorts generalizing m path? columns with
  | direction hmem =>
    cases htarget
    obtain ⟨first, hfirst, hsub⟩ := exists_orderTerm h hmem
    cases path? with
    | none => exact absurd rfl hpath
    | some path =>
      cases (orderTerm_direction hstored path direction).symm.trans hfirst
      exact hsub (.head _)
  | @nested terms inner key keys hmem _ ih =>
    obtain ⟨next, hnext, htarget⟩ := Option.bind_eq_some_iff.1 htarget
    obtain ⟨first, hfirst, hsub⟩ := exists_orderTerm h hmem
    rw [orderTerm_nested hnext] at hfirst
    have hbelow := ih htarget (some (aliasPath path? key)) (List.cons_ne_nil _ _) hfirst
    rw [Option.toList_some, List.singleton_append, intercalate_aliasPath] at hbelow
    exact hsub hbelow

/-! ## The column that a path refers to -/

/-- Whether filters and orders of an entity refer to the column by a path of relations and a field. -/
structure RefersTo (c : Compiler) (m : Member) (keys : List String) (field : String) (column : Sql) :
    Prop where
  /-- The dotted key stands for the column, whatever qualifies those of the entity itself. -/
  reference : ∀ qualifier?, c.columnReference m (".".intercalate (keys ++ [field])) qualifier? = .ok column
  /-- Wherever a filter compares something under the dotted key, it compares the column. -/
  compared : ∀ {filter options p}, c.filterPredicate m (some filter) options = .ok p →
    ∀ {condition}, filter.Holds (".".intercalate (keys ++ [field])) (.field condition) →
    ∀ {operator v}, condition.Compares operator v → ∃ sql, .atom sql ∈ p ∧ ComparesColumn column v sql
  /-- A condition can stand under the dotted key if it can stand under any other field key. -/
  accepted : isOperatorKey (".".intercalate (keys ++ [field])) = false →
    ∀ {other qualifier?}, isOperatorKey other = false → (c.columnReference m other qualifier?).isOk = true →
    ∀ grouped condition,
      (c.entry m qualifier? grouped (".".intercalate (keys ++ [field])) (.field condition)).isOk =
        (c.entry m qualifier? grouped other (.field condition)).isOk
  /-- A dotted key that is taken for an operator is refused. -/
  refused : isOperatorKey (".".intercalate (keys ++ [field])) = true →
    ∀ qualifier? grouped condition,
      c.entry m qualifier? grouped (".".intercalate (keys ++ [field])) (.field condition) =
        .error (.unknownOperator (".".intercalate (keys ++ [field])))
  /-- The order by nested terms is that by the column. -/
  ordered : ∀ qualifier? direction, c.orderTerms m qualifier? none (OrderBy.along field direction keys) =
    .ok [column ++ [.word direction.sqlSuffix]]
  /-- Wherever an order sorts by such terms, it sorts by the column. -/
  sorted : ∀ {terms qualifier? columns}, c.orderTerms m qualifier? none terms = .ok columns →
    ∀ {direction}, OrderBy.Sorts field direction keys terms → column ++ [.word direction.sqlSuffix] ∈ columns

/-- Items of two lists that are related one by one have counterparts. -/
theorem exists_of_forall₂ {α β : Type} {R : α → β → Prop} {as : List α} {bs : List β}
    (h : List.Forall₂ R as bs) {a : α} (ha : a ∈ as) : ∃ b ∈ bs, R a b := by
  induction h with
  | nil => cases ha
  | cons hfirst _ ih =>
    rcases List.mem_cons.1 ha with rfl | ha
    · exact ⟨_, .head _, hfirst⟩
    · obtain ⟨b, hb, hab⟩ := ih ha
      exact ⟨b, .tail _ hb, hab⟩

theorem refersTo_of_follow? (hsegments : m.registry.HasSegmentKeys) (hm : m ∈ m.registry.members)
    {keys : List String} (hkeys : keys ≠ []) {target : Member} (htarget : m.follow? keys = some target)
    {field : String} (hstored : target.entity.isStored field = true) :
    c.RefersTo m keys field (aliasedColumn (".".intercalate keys) (target.columnName field)) := by
  obtain ⟨stored, hfield, _⟩ := exists_field hstored
  have hreference := c.columnReference_path hsegments hm hkeys htarget (Assoc.mem_keys_iff.2 ⟨stored, hfield⟩)
  have hkey : ".".intercalate keys ++ "." ++ field = ".".intercalate (keys ++ [field]) := by
    rw [String.intercalate_append_of_ne_nil hkeys (List.cons_ne_nil _ _), String.intercalate_singleton]
  rw [hkey] at hreference
  have hall := (m.follow?_spec hsegments hm htarget).2.2
  have hcolumn : column target field (some (".".intercalate (none.toList ++ keys))) =
      aliasedColumn (".".intercalate keys) (target.columnName field) := by
    rw [column, Option.getD_some, Option.toList_none, List.nil_append,
      Sql.qualifier_eq (Sql.intercalate_ne_empty hall hkeys)]
    rfl
  refine ⟨hreference, fun h _ hholds _ _ hcompares => ?_, fun hplain _ _ hother hok grouped condition => ?_,
    fun hoperator _ _ _ => ?_, fun _ direction => ?_, fun h _ hsorts => ?_⟩
  · exact exists_comparesColumn (hreference _) hholds hcompares h
  · rw [Compiler.entry, Compiler.entry, hplain, hother]
    exact isOk_condition_congr (by rw [hreference, hok]; rfl) condition
  · rw [Compiler.entry, hoperator]
    rfl
  · rw [orderTerms_along hstored direction htarget none hkeys, hcolumn]
  · exact hcolumn ▸ mem_orderTerms hstored hsorts htarget none hkeys h

/-- Whether a plan joins the entity at the other end of a relation on a condition. -/
def JoinsOn (c : Compiler) (m : Member) (p : JoinPlan) (x : ReachedRelation) (target : Member)
    (condition : Predicate) : Prop :=
  ∃ j ∈ p.joins, c.dialect.render j.toSql = c.joinText x target (x.path none) (x.parentName m none) condition

/-- A relation to one row is joined on the condition that its filter says. -/
theorem exists_joinsOn {projection : Projection} {p : JoinPlan} (hplan : c.plan m (some projection) none = .ok p)
    {x : ReachedRelation} (hx : x ∈ m.reached projection.selected) (hone : x.isToOne = true) :
    ∃ target condition, x.owner.related x.key = .ok target ∧
      c.filterPredicate target x.query.filter? (joinOptions (x.path none)) = .ok condition ∧
      c.JoinsOn m p x target condition := by
  have hjoins := (covers_planProjection m none projection p hplan).joins
  obtain ⟨_, hclause, target, condition, htarget, hcondition, htext⟩ :=
    exists_of_forall₂ hjoins (List.mem_filter.2 ⟨hx, hone⟩)
  obtain ⟨j, hj, hclause⟩ := List.mem_map.1 hclause
  exact ⟨target, condition, htarget, hcondition, j, hj, hclause.trans htext⟩

/-- The join of a relation to one row introduces its dotted path as an alias, and filters and orders refer to the
stored fields of the related entity by their columns behind that alias. -/
theorem refersTo_aliasedColumn (hsegments : m.registry.HasSegmentKeys) (hm : m ∈ m.registry.members)
    {projection : Projection} {p : JoinPlan} (hplan : c.plan m (some projection) none = .ok p)
    {x : ReachedRelation} (hx : x ∈ m.reached projection.selected) (hone : x.isToOne = true) :
    ∃ target, x.owner.related x.key = .ok target ∧
      (∃ j ∈ p.joins, ∃ condition, c.dialect.render j.toSql =
        (if x.query.required then " INNER JOIN " else " LEFT JOIN ") ++
          c.dialect.render (Sql.path target.tableName) ++ " " ++ c.dialect.render [.name (x.path none)] ++
          " ON " ++ condition) ∧
      ∀ field, target.entity.isStored field = true →
        c.RefersTo m x.keys field (aliasedColumn (x.path none) (target.columnName field)) := by
  obtain ⟨_, howner, hrelation⟩ := ReachedRelation.mem_reached_iff.1 hx
  obtain ⟨target, condition, htarget, _, j, hj, hclause⟩ := exists_joinsOn hplan hx hone
  have hkeys : x.keys ≠ [] := by simp [SelectedRelation.keys]
  have hfollow := ReachedRelation.follow?_keys howner hrelation hone htarget
  have hall := (m.follow?_spec hsegments hm hfollow).2.2
  have hpath : Sql.identifier (x.path none) = [.name (x.path none)] :=
    Sql.identifier_eq (Sql.intercalate_ne_empty hall hkeys)
  refine ⟨target, htarget, ⟨j, hj, ?_⟩, fun field hstored =>
    refersTo_of_follow? hsegments hm hkeys hfollow hstored⟩
  rw [hclause]
  simp only [joinText, hpath]
  exact ⟨_, String.append_assoc ..⟩

/-- The unit of the whole of an item, with a column of another name than its field. -/
theorem refersTo_aliasedColumn_items :
    let id : Field := { type := .integer }
    let whole : Relation := { entity := "item", cardinality := .manyToOne, keyPairs := [⟨"wholeId", "id"⟩] }
    let unit : Relation := { entity := "unit", cardinality := .manyToOne, keyPairs := [⟨"unitId", "id"⟩] }
    let item : Entity :=
      { name := "item"
        fields := Assoc.ofPairs [("id", id), ("wholeId", id), ("unitId", id)]
        relations := Assoc.ofPairs [("whole", whole), ("unit", unit)] }
    let units : Entity :=
      { name := "unit", fields := Assoc.ofPairs [("id", id), ("name", { type := .string, column? := some "label" })] }
    let m : Member := ⟨Registry.ofList [item, units], item⟩
    let c : Compiler := { dialect := .postgres, expander := fun _ _ => .ok "" }
    let projection : Projection :=
      .map [("whole", .relation { projection? := some (.map [("unit", .flag true)]), required := true })]
    let x : ReachedRelation := { parents := ["whole"], key := "unit", query := {}, owner := m, relation := unit }
    ∃ p, c.plan m (some projection) none = .ok p ∧ m.registry.HasSegmentKeys ∧
      x ∈ m.reached projection.selected ∧ x.isToOne = true ∧
      (∃ j ∈ p.joins, ∃ condition,
        c.dialect.render j.toSql = " LEFT JOIN \"unit\" \"whole.unit\" ON " ++ condition) ∧
      c.RefersTo m ["whole", "unit"] "name" [.name "whole.unit", .word ".", .name "label"] := by
  intro id whole unit item units m c projection x
  have hplan : (c.plan m (some projection) none).toOption.isSome = true := by decide +kernel
  obtain ⟨p, hp⟩ := Option.isSome_iff_exists.1 hplan
  have hp := toOption_eq_some_iff.1 hp
  have hsegments : m.registry.HasSegmentKeys := by decide +kernel
  have hx : x ∈ m.reached projection.selected :=
    ReachedRelation.mem_reached_iff.2 ⟨.tail _ (.head _), rfl, rfl⟩
  obtain ⟨target, htarget, ⟨j, hj, condition, hclause⟩, hcolumns⟩ :=
    refersTo_aliasedColumn hsegments (List.mem_of_getElem? (i := 0) rfl) hp hx rfl
  have hunits : x.owner.related x.key = .ok ⟨m.registry, units⟩ := rfl
  obtain rfl := Except.ok.inj (htarget.symm.trans hunits)
  have htable : (if x.query.required then " INNER JOIN " else " LEFT JOIN ") ++
      c.dialect.render (Sql.path (Member.mk m.registry units).tableName) ++ " " ++
      c.dialect.render [.name (x.path none)] ++ " ON " = " LEFT JOIN \"unit\" \"whole.unit\" ON " := by
    decide +kernel
  have hcolumn : aliasedColumn (x.path none) ((Member.mk m.registry units).columnName "name") =
      [.name "whole.unit", .word ".", .name "label"] := by decide +kernel
  have hcolumns := hcolumns "name" (by decide +kernel)
  rw [hcolumn] at hcolumns
  rw [htable] at hclause
  exact ⟨p, hp, hsegments, hx, rfl, ⟨j, hj, condition, hclause⟩, hcolumns⟩

/-- A relation key may begin with a dollar sign. The join introduces it and an order finds it, but a filter takes
the path for an operator. -/
theorem refuses_path_of_dollar :
    let id : Field := { type := .integer }
    let up : Relation := { entity := "unit", cardinality := .manyToOne, keyPairs := [⟨"unitId", "id"⟩] }
    let item : Entity :=
      { name := "item", fields := Assoc.ofPairs [("id", id), ("unitId", id)]
        relations := Assoc.ofPairs [("$up", up)] }
    let unit : Entity :=
      { name := "unit", fields := Assoc.ofPairs [("id", id), ("name", { type := .string })] }
    let m : Member := ⟨Registry.ofList [item, unit], item⟩
    let c : Compiler := { dialect := .postgres, expander := fun _ _ => .ok "" }
    let projection : Projection := .map [("$up", .flag true)]
    let x : ReachedRelation := { parents := [], key := "$up", query := {}, owner := m, relation := up }
    m.registry.HasSegmentKeys ∧ x ∈ m.reached projection.selected ∧ x.isToOne = true ∧
      unit.isStored "name" = true ∧
      (∃ p, c.plan m (some projection) none = .ok p ∧ p.joins.map (·.path) = ["$up"]) ∧
      c.orderTerms m none none [("$up", .nested [("name", .direction .descending)])] =
        .ok [[.name "$up", .word ".", .name "name", .word " DESC"]] ∧
      c.filterPredicate m (some [("$up.name", .field (.value (.text "kg")))]) {} =
        .error (.unknownOperator "$up.name") := by
  intro id up item unit m c projection x
  refine ⟨by decide +kernel, ReachedRelation.mem_reached_iff.2 ⟨.head _, rfl, rfl⟩, rfl, by decide +kernel,
    ?_, rfl, rfl⟩
  have hplan : ((c.plan m (some projection) none).toOption.map fun p => p.joins.map (·.path)) =
      some ["$up"] := by decide +kernel
  obtain ⟨p, hp, hpath⟩ := Option.map_eq_some_iff.1 hplan
  exact ⟨p, toOption_eq_some_iff.1 hp, hpath⟩

end Compiler

end EntitySql
