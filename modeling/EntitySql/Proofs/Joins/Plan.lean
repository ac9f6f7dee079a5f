import EntitySql.Proofs.Ensures
import EntitySql.Proofs.Joins.Selected
import Mathlib.Data.List.Forall2
/-!
# Joins of selected relations

Of the selected relations that are reached, the plan of a projection joins those with one row and puts off
the others. `Compiler.Joins` says which text joins a relation, and `Compiler.covers_plan` that the plan
consists of these texts, in the order of the projection.
-/

namespace EntitySql

/-! ## What becomes of a relation -/

namespace ReachedRelation

/-- The dotted path, which is the alias of the joined rows. -/
def path (x : ReachedRelation) (parent? : Option String) : String :=
  ".".intercalate (parent?.toList ++ x.keys)

/-- The alias of the rows that the relation starts from, which is the name of the table at the root. -/
def parentName (x : ReachedRelation) (root : Member) (parent? : Option String) : String :=
  if parent?.toList ++ x.parents = [] then root.tableName
  else ".".intercalate (parent?.toList ++ x.parents)

/-- The relation as one that needs a query of its own. -/
def deferral (x : ReachedRelation) (parent? : Option String) : DeferredRelation :=
  { path := x.path parent?, owner := x.owner.entity.name, relation := x.key, query := x.query }

end ReachedRelation

namespace Compiler

variable (c : Compiler)

/-- The text of a join: all pairs of key columns are equal, and the condition holds. -/
def joinText (x : ReachedRelation) (target : Member) (path parent : String) (condition : Predicate) :
    String :=
  let quoted (name : String) : String := c.dialect.render (Sql.identifier name)
  let equalities := x.relation.keyPairs.map fun pair =>
    quoted path ++ "." ++ quoted (target.columnName pair.far) ++ " = " ++
      quoted parent ++ "." ++ quoted (x.owner.columnName pair.near)
  (if x.query.required then " INNER JOIN " else " LEFT JOIN ") ++
    c.dialect.render (Sql.path target.tableName) ++ " " ++ quoted path ++ " ON " ++
    " AND ".intercalate equalities ++
    if condition.isEmpty then "" else " AND " ++ c.dialect.render condition.toSql

/-- How the filter of a joined relation is compiled. -/
def joinOptions (path : String) : FilterOptions :=
  { qualifier? := some path, grouped := true, clause := .bare, softDelete? := some false }

/-- Whether the clause joins the entity behind a relation to the rows that the relation starts from, on
the condition that the relation's filter says. -/
def Joins (root : Member) (parent? : Option String) (x : ReachedRelation) (clause : String) : Prop :=
  ∃ target condition, x.owner.related x.key = .ok target ∧
    c.filterPredicate target x.query.filter? (joinOptions (x.path parent?)) = .ok condition ∧
    clause = c.joinText x target (x.path parent?) (x.parentName root parent?) condition

/-- Whether the text lists what is read of the joined rows of a relation, under names that start with its path. -/
def ReadsJoined (parent? : Option String) (x : ReachedRelation) (fields : Sql) : Prop :=
  ∃ target, x.owner.related x.key = .ok target ∧
    c.projectedFields target x.query.projection? (some (x.path parent?)) true = .ok fields

/-- Whether the plan joins and reads the relations with one row and puts off the others. -/
structure Covers (root : Member) (parent? : Option String) (selected : List SelectedRelation)
    (p : JoinPlan) : Prop where
  joins : List.Forall₂ (c.Joins root parent?) ((root.reached selected).filter (·.isToOne))
    (p.joins.map fun j => c.dialect.render j.toSql)
  fields : List.Forall₂ (c.ReadsJoined parent?) ((root.reached selected).filter (·.isToOne)) p.fields
  deferred : p.deferred =
    ((root.reached selected).filter fun x => !x.isToOne).map (·.deferral parent?)

end Compiler

/-! ## Names of joined rows -/

namespace Compiler

/-- Names behind the path of a relation go on with the names in front of it. -/
theorem intercalate_aliasPath (parent? : Option String) (key : String) (names : List String) :
    ".".intercalate (aliasPath parent? key :: names) = ".".intercalate (parent?.toList ++ key :: names) := by
  cases parent? with
  | none => rfl
  | some parent => cases names <;> simp [aliasPath, String.intercalate_cons_cons, String.append_assoc]

theorem aliasPath_eq (parent? : Option String) (key : String) :
    aliasPath parent? key = ".".intercalate (parent?.toList ++ [key]) :=
  String.intercalate_singleton.symm.trans (intercalate_aliasPath parent? key [])

end Compiler

namespace ReachedRelation

variable (x : ReachedRelation) (parent? : Option String) (key : String)

theorem path_below : (x.below key).path parent? = x.path (some (Compiler.aliasPath parent? key)) :=
  (Compiler.intercalate_aliasPath parent? key x.keys).symm

theorem parentName_below (root target : Member) :
    (x.below key).parentName root parent? =
      x.parentName target (some (Compiler.aliasPath parent? key)) := by
  have hbelow : parent?.toList ++ (x.below key).parents ≠ [] := by simp [below, SelectedRelation.below]
  have halias : (some (Compiler.aliasPath parent? key)).toList ++ x.parents ≠ [] := List.cons_ne_nil _ _
  rw [parentName, parentName, if_neg hbelow, if_neg halias]
  exact (Compiler.intercalate_aliasPath parent? key x.parents).symm

end ReachedRelation

/-! ## Text -/

namespace Dialect

variable (d : Dialect)

theorem render_append (first second : Sql) :
    d.render (first ++ second) = d.render first ++ d.render second := by
  rw [render, List.flatMap_append, String.ofList_append]
  rfl

theorem render_word_cons (text : String) (sql : Sql) :
    d.render (.word text :: sql) = text ++ d.render sql := by
  rw [render, List.flatMap_cons, String.ofList_append]
  simp [renderPiece, render]

theorem render_flatMap {α : Type} (f : α → Sql) (items : List α) :
    d.render (items.flatMap f) = String.join (items.map fun a => d.render (f a)) := by
  induction items with
  | nil => rfl
  | cons a rest ih => rw [List.flatMap_cons, render_append, ih, List.map_cons, String.join_cons]

theorem render_join (separator : String) (parts : List Sql) :
    d.render (Sql.join separator parts) = separator.intercalate (parts.map d.render) := by
  induction parts with
  | nil => rfl
  | cons first rest ih =>
    cases rest with
    | nil => simp [Sql.join]
    | cons second rest =>
      have hjoin : Sql.join separator (first :: second :: rest) =
          first ++ .word separator :: Sql.join separator (second :: rest) := rfl
      rw [hjoin, render_append, render_word_cons, ih]
      simp only [List.map_cons, String.intercalate_cons_cons, String.append_assoc]

end Dialect

namespace Compiler

variable {c : Compiler} {m target : Member} {parent? : Option String} {key : String}

/-- Without a filter nothing restricts the joined rows. -/
theorem filterPredicate_none_joinOptions (path : String) :
    c.filterPredicate target none (joinOptions path) = .ok [] := by
  have hguard : softDeleteGuard target none (joinOptions path) = [] := by
    unfold softDeleteGuard
    split <;> simp [joinOptions]
  rw [filterPredicate, hguard]
  rfl

theorem joinOf_eq (relation : Relation) (path : String) (filter? : Option Filter) (required : Bool) :
    c.joinOf m target relation parent? path filter? required = do
      let condition ← c.filterPredicate target filter? (joinOptions path)
      return {
        path, required, condition
        table := target.tableName
        parent := parent?.getD m.tableName
        columns := relation.keyPairs.map fun pair =>
          (target.columnName pair.far, m.columnName pair.near) } := by
  unfold joinOf
  cases filter? with
  | none =>
    rw [filterPredicate_none_joinOptions]
    rfl
  | some list => rfl

/-- The join of a relation of the root is the clause for it. -/
theorem joins_of_joinOf {relation : Relation} {query : RelationQuery} {j : Join}
    (htarget : m.related key = .ok target)
    (hj : c.joinOf m target relation parent? (aliasPath parent? key) query.filter? query.required = .ok j) :
    c.Joins m parent? { parents := [], key, query, owner := m, relation } (c.dialect.render j.toSql) := by
  rw [joinOf_eq] at hj
  obtain ⟨condition, hcondition, hj⟩ := ok_of_bind_eq_ok hj
  cases hj
  rw [aliasPath_eq] at hcondition ⊢
  refine ⟨target, condition, htarget, hcondition, ?_⟩
  have hparent : ReachedRelation.parentName { parents := [], key, query, owner := m, relation } m parent? =
      parent?.getD m.tableName := by
    cases parent? <;> simp [ReachedRelation.parentName]
  have hcondition : c.dialect.render (if condition.isEmpty then [] else .word " AND " :: condition.toSql) =
      if condition.isEmpty then "" else " AND " ++ c.dialect.render condition.toSql := by
    split
    · rfl
    · rw [Dialect.render_word_cons]
  rw [hparent]
  simp only [Join.toSql, joinText, Join.equality, Dialect.render_append, Dialect.render_word_cons,
    Dialect.render_join, List.map_map, Function.comp_def, hcondition, String.append_assoc]
  rfl

theorem ReadsJoined.below {x : ReachedRelation} {fields : Sql}
    (h : c.ReadsJoined (some (aliasPath parent? key)) x fields) : c.ReadsJoined parent? (x.below key) fields := by
  obtain ⟨other, hother, hfields⟩ := h
  rw [← x.path_below] at hfields
  exact ⟨other, hother, hfields⟩

theorem Joins.below {x : ReachedRelation} {clause : String}
    (h : c.Joins target (some (aliasPath parent? key)) x clause) :
    c.Joins m parent? (x.below key) clause := by
  obtain ⟨other, condition, hother, hcondition, rfl⟩ := h
  refine ⟨other, condition, hother, ?_, ?_⟩
  · rwa [x.path_below]
  · rw [x.path_below, x.parentName_below parent? key m target]
    rfl

namespace Covers

/-- Where nothing is reached there is nothing to plan. -/
theorem of_reached_eq_nil {selected : List SelectedRelation} (h : m.reached selected = []) :
    c.Covers m parent? selected .none where
  joins := by
    rw [h]
    exact .nil
  fields := by
    rw [h]
    exact .nil
  deferred := by
    rw [h]
    rfl

theorem none : c.Covers m parent? [] .none := of_reached_eq_nil rfl

theorem append {first second : List SelectedRelation} {p q : JoinPlan} (hp : c.Covers m parent? first p)
    (hq : c.Covers m parent? second q) : c.Covers m parent? (first ++ second) (p ++ q) where
  joins := by
    rw [Member.reached_append, List.filter_append]
    have hjoins : (p ++ q).joins = p.joins ++ q.joins := rfl
    rw [hjoins, List.map_append]
    exact List.rel_append hp.joins hq.joins
  fields := by
    rw [Member.reached_append, List.filter_append]
    exact List.rel_append hp.fields hq.fields
  deferred := by
    rw [Member.reached_append, List.filter_append, List.map_append, ← hp.deferred, ← hq.deferred]
    rfl

theorem below (h : m.joined? key = some target) {selected : List SelectedRelation} {p : JoinPlan}
    (hp : c.Covers target (some (aliasPath parent? key)) selected p) :
    c.Covers m parent? (selected.map (·.below key)) p where
  joins := by
    rw [Member.reached_map_below h, List.filter_map, List.forall₂_map_left_iff]
    exact hp.joins.imp fun _ _ => Joins.below
  fields := by
    rw [Member.reached_map_below h, List.filter_map, List.forall₂_map_left_iff]
    exact hp.fields.imp fun _ _ => ReadsJoined.below
  deferred := by
    rw [Member.reached_map_below h, List.filter_map, List.map_map, hp.deferred]
    refine List.map_congr_left fun x _ => ?_
    simp only [Function.comp_apply, ReachedRelation.deferral, x.path_below]
    rfl

/-- A joined relation goes in front of those below it. -/
theorem cons {relation : Relation} {query : RelationQuery} {fields : Sql} {join : Join}
    {nested : JoinPlan} (hrelation : m.entity.relations.get? key = some relation)
    (hone : relation.cardinality.isToOne = true)
    (hjoin : c.Joins m parent? { parents := [], key, query, owner := m, relation }
      (c.dialect.render join.toSql))
    (hfields : c.ReadsJoined parent? { parents := [], key, query, owner := m, relation } fields)
    (hnested : c.Covers m parent? (query.selected.map (·.below key)) nested) :
    c.Covers m parent? (ProjectionEntry.selected key (.relation query))
      ({ fields := [fields], joins := [join] : JoinPlan } ++ nested) := by
  have hone : ReachedRelation.isToOne { parents := [], key, query, owner := m, relation } = true := hone
  constructor
  · rw [Member.reached_selected_relation hrelation, List.filter_cons, hone]
    exact .cons hjoin hnested.joins
  · rw [Member.reached_selected_relation hrelation, List.filter_cons, hone]
    exact .cons hfields hnested.fields
  · rw [Member.reached_selected_relation hrelation, List.filter_cons, hone]
    exact hnested.deferred

/-- A relation with many rows is put off. -/
theorem deferral {relation : Relation} {query : RelationQuery}
    (hrelation : m.entity.relations.get? key = some relation)
    (hmany : relation.cardinality.isToOne = false) :
    c.Covers m parent? (ProjectionEntry.selected key (.relation query))
      { deferred := [{ path := aliasPath parent? key, owner := m.entity.name, relation := key, query }] } := by
  have hjoined : m.joined? key = Option.none := Member.joined?_eq_none (by simpa [hrelation] using hmany)
  have hreached : m.reached (ProjectionEntry.selected key (.relation query)) =
      [{ parents := [], key, query, owner := m, relation }] := by
    rw [Member.reached_selected_relation hrelation, Member.reached_map_below_eq_nil hjoined]
  have hone : ReachedRelation.isToOne { parents := [], key, query, owner := m, relation } = false := hmany
  constructor
  · rw [hreached]
    simp [hone]
  · rw [hreached]
    simp [hone]
  · rw [hreached]
    simp [hone, ReachedRelation.deferral, ReachedRelation.path, aliasPath_eq, SelectedRelation.keys]

end Covers

/-- The plan of an entry that queries a relation covers it if the plan below it covers what is below. -/
theorem covers_planEntry_relation (m : Member) (parent? : Option String) (key : String) {query : RelationQuery}
    (hbelow : ∀ target path, Ensures (c.Covers target (some path) query.selected)
      (c.planRelation target path query)) :
    Ensures (c.Covers m parent? (ProjectionEntry.selected key (.relation query)))
      (c.planEntry m parent? key (.relation query)) := by
  simp only [planEntry]
  split
  · rename_i hnone
    exact .pure (.of_reached_eq_nil (Member.reached_selected_of_none hnone query))
  · rename_i relation hrelation
    split
    · rename_i hone
      refine .bind_ok fun target htarget => .bind_ok fun fields hfields => .bind_ok fun join hjoin =>
        (hbelow target _).bind fun nested hnested => .pure ?_
      have hcovered := hnested.below (Member.joined?_eq_some hrelation hone htarget)
      rw [aliasPath_eq] at hfields
      exact hcovered.cons hrelation hone (joins_of_joinOf htarget hjoin) ⟨target, htarget, hfields⟩
    · rename_i hmany
      exact .pure (.deferral hrelation (by simpa using hmany))

/-- To include a relation is to ask for all of it. -/
theorem planEntry_flag_true (m : Member) (parent? : Option String) (key : String) :
    c.planEntry m parent? key (.flag true) = c.planEntry m parent? key (.relation {}) := by
  have happend : ∀ p : JoinPlan, p ++ .none = p := fun p => by
    change JoinPlan.append p .none = p
    simp [JoinPlan.append, JoinPlan.none]
  simp only [planEntry, planRelation, pure_bind, happend]

mutual

theorem covers_planProjection (m : Member) (parent? : Option String) : ∀ projection : Projection,
    Ensures (c.Covers m parent? projection.selected) (c.planProjection m parent? projection)
  | .items _ => .pure .none
  | .map entries => covers_planEntries m parent? entries

theorem covers_planEntries (m : Member) (parent? : Option String) :
    ∀ entries : List (String × ProjectionEntry),
    Ensures (c.Covers m parent? (ProjectionEntry.selectedOfEntries entries)) (c.planEntries m parent? entries)
  | [] => .pure .none
  | (key, entry) :: rest =>
    (covers_planEntry m parent? key entry).bind fun _ hfirst =>
      (covers_planEntries m parent? rest).bind fun _ hrest => .pure (hfirst.append hrest)

theorem covers_planEntry (m : Member) (parent? : Option String) (key : String) : ∀ entry : ProjectionEntry,
    Ensures (c.Covers m parent? (entry.selected key)) (c.planEntry m parent? key entry)
  | .flag false => .pure .none
  | .flag true => by
    rw [planEntry_flag_true]
    exact covers_planEntry_relation m parent? key fun _ _ => .pure .none
  | .relation query =>
    covers_planEntry_relation m parent? key fun target path => covers_planRelation target path query

theorem covers_planRelation (target : Member) (path : String) : ∀ query : RelationQuery,
    Ensures (c.Covers target (some path) query.selected) (c.planRelation target path query)
  | ⟨some projection, _, _, _, _, _⟩ => covers_planProjection target (some path) projection
  | ⟨none, _, _, _, _, _⟩ => .pure .none

end

theorem covers_of_plan {projection? : Option Projection} {p : JoinPlan} (h : c.plan m projection? parent? = .ok p) :
    c.Covers m parent? (projection?.toList.flatMap Projection.selected) p := by
  cases projection? with
  | none =>
    cases h
    exact .none
  | some projection =>
    rw [Option.toList_some, List.flatMap_singleton]
    exact covers_planProjection m parent? projection p h

/-- The plan of a projection joins exactly the selected relations with one row that relations with one row
lead to, in the order of the projection, and puts off exactly those with many. Where no map says two things
about a key, each of them comes once. -/
theorem covers_plan {projection? : Option Projection} {p : JoinPlan}
    (h : c.plan m projection? parent? = .ok p) :
    let reached := m.reached (projection?.toList.flatMap Projection.selected)
    (∃ clauses, c.dialect.render p.tables = String.join clauses ∧
      List.Forall₂ (c.Joins m parent?) (reached.filter (·.isToOne)) clauses) ∧
    p.deferred = (reached.filter fun x => !x.isToOne).map (·.deferral parent?) ∧
    ((∀ projection ∈ projection?, projection.IsUnambiguous) →
      (reached.map fun x => x.toSelectedRelation.keys).Nodup) := by
  have hcovers := covers_of_plan h
  exact ⟨⟨_, c.dialect.render_flatMap _ _, hcovers.joins⟩, hcovers.deferred, m.nodup_keys_reached⟩

/-- Items are parts of others and have units, which list their items. Fields, relations that are left out and
what is asked of a unit's items add nothing. -/
theorem covers_plan_items :
    let id : Field := { type := .integer }
    let item : Entity :=
      { name := "item"
        fields := Assoc.ofPairs [("id", id), ("wholeId", id), ("unitId", id)]
        relations := Assoc.ofPairs [
          ("whole", { entity := "item", cardinality := .manyToOne, keyPairs := [⟨"wholeId", "id"⟩] }),
          ("unit", { entity := "unit", cardinality := .manyToOne, keyPairs := [⟨"unitId", "id"⟩] })] }
    let unit : Entity :=
      { name := "unit"
        fields := Assoc.ofPairs [("id", id), ("name", { type := .string })]
        relations := Assoc.ofPairs [
          ("items", { entity := "item", cardinality := .oneToMany, keyPairs := [⟨"id", "unitId"⟩] })] }
    let items : RelationQuery := { projection? := some (.map [("unit", .flag true)]) }
    let units : RelationQuery :=
      { projection? := some (.map [("name", .flag true), ("items", .relation items)])
        filter? := some [("name", .field (.value (.text "kg")))], required := true }
    let wholes : RelationQuery :=
      { projection? := some (.map [("unit", .relation units), ("whole", .flag true)]) }
    let projection : Projection :=
      .map [("wholeId", .flag true), ("unit", .flag false), ("whole", .relation wholes)]
    let m : Member := ⟨Registry.ofList [item, unit], item⟩
    let c : Compiler := { dialect := .postgres, expander := fun _ _ => .ok "" }
    let reached := m.reached projection.selected
    ∃ p, c.plan m (some projection) none = .ok p ∧ projection.IsUnambiguous ∧
      (∃ clauses, c.dialect.render p.tables = String.join clauses ∧
        List.Forall₂ (c.Joins m none) (reached.filter (·.isToOne)) clauses) ∧
      ((reached.filter (·.isToOne)).map fun x => (x.path none, x.parentName m none)) =
        [("whole", "item"), ("whole.unit", "whole"), ("whole.whole", "whole")] ∧
      p.deferred.map (fun x => (x.path, x.owner, x.relation)) = [("whole.unit.items", "unit", "items")] ∧
      (reached.map fun x => x.toSelectedRelation.keys).Nodup := by
  intro id item unit items units wholes projection m c reached
  have hplan : (c.plan m (some projection) none).toOption.isSome = true := by decide +kernel
  have hunambiguous : projection.IsUnambiguous := by
    simp [projection, wholes, units, items, Projection.IsUnambiguous, ProjectionEntry.AreUnambiguous,
      ProjectionEntry.IsUnambiguous, RelationQuery.IsUnambiguous]
  obtain ⟨p, hp⟩ := Option.isSome_iff_exists.1 hplan
  have hp := toOption_eq_some_iff.1 hp
  obtain ⟨hjoins, hdeferred, hnodup⟩ := covers_plan hp
  refine ⟨p, hp, hunambiguous, hjoins, by decide +kernel, ?_, hnodup ?_⟩
  · rw [hdeferred]
    decide +kernel
  · rintro _ ⟨⟩
    exact hunambiguous

end Compiler

end EntitySql
