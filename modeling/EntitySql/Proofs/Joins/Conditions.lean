import EntitySql.Proofs.Joins.Columns
/-!
# Columns in the conditions of joins

A joined relation may have a filter of its own, which is compiled for the related entity. Its fields are columns
behind the alias of the join, and that alias is the whole path from the root. A dotted key of the filter starts at the
related entity, and so does the alias that it is compiled to: `Compiler.comparesUnder_joinCondition` says what is
compared, and that it is nothing of the rows that are joined at the end of the path.
-/

namespace EntitySql

namespace Compiler

variable {c : Compiler} {m target : Member} {key : String}

/-- Whether a predicate compares the column wherever the filter compares something under the key. -/
def ComparesUnder (list : Filter) (p : Predicate) (key : String) (column : Sql) : Prop :=
  ∀ condition, list.Holds key (.field condition) → ∀ operator v, condition.Compares operator v →
    ∃ sql, .atom sql ∈ p ∧ ComparesColumn column v sql

/-- A stored field is its column behind the qualifier. -/
theorem columnReference_of_isStored (hstored : m.entity.isStored key = true) {path : String} (hpath : path ≠ "") :
    c.columnReference m key (some path) = .ok (aliasedColumn path (m.columnName key)) := by
  rw [columnReference_eq_column hstored, column, Option.getD_some, Sql.qualifier_eq hpath]
  rfl

theorem path_eq_append {x y : ReachedRelation} {keys : List String} (hkeys : y.keys = x.keys ++ keys)
    (hne : keys ≠ []) : y.path none = x.path none ++ "." ++ ".".intercalate keys := by
  have hx : x.keys ≠ [] := by simp [SelectedRelation.keys]
  rw [ReachedRelation.path, Option.toList_none, List.nil_append, hkeys,
    String.intercalate_append_of_ne_nil hx hne]
  rfl

theorem aliasedColumn_inj {path other column : String} (h : aliasedColumn path column = aliasedColumn other column) :
    path = other := Sql.Piece.name.inj (List.cons.inj h).1

/-- The join of a relation to one row compares columns of its own rows under plain keys. Under a key along further
relations that are joined below, it compares columns behind the path that the key names, and not behind the alias of
these rows, which is the path from the root. -/
theorem comparesUnder_joinCondition (hsegments : m.registry.HasSegmentKeys) (hm : m ∈ m.registry.members)
    {projection : Projection} {p : JoinPlan} (hplan : c.plan m (some projection) none = .ok p)
    {x : ReachedRelation} (hx : x ∈ m.reached projection.selected) (hone : x.isToOne = true) {list : Filter}
    (hfilter : x.query.filter? = some list) :
    ∃ target condition, x.owner.related x.key = .ok target ∧ c.JoinsOn m p x target condition ∧
      (∀ field, target.entity.isStored field = true →
        ComparesUnder list condition field (aliasedColumn (x.path none) (target.columnName field))) ∧
      ∀ y ∈ m.reached projection.selected, y.isToOne = true → ∀ keys, keys ≠ [] → y.keys = x.keys ++ keys →
        ∃ final, y.owner.related y.key = .ok final ∧ (∃ below, c.JoinsOn m p y final below) ∧
          y.path none = x.path none ++ "." ++ ".".intercalate keys ∧
          ∀ field, final.entity.isStored field = true →
            ComparesUnder list condition (".".intercalate (keys ++ [field]))
              (aliasedColumn (".".intercalate keys) (final.columnName field)) ∧
            aliasedColumn (".".intercalate keys) (final.columnName field) ≠
              aliasedColumn (y.path none) (final.columnName field) := by
  obtain ⟨_, howner, hrelation⟩ := ReachedRelation.mem_reached_iff.1 hx
  obtain ⟨target, condition, htarget, hcondition, hjoin⟩ := exists_joinsOn hplan hx hone
  rw [hfilter] at hcondition
  have hfollow := ReachedRelation.follow?_keys howner hrelation hone htarget
  obtain ⟨hregistry, hmem, hall⟩ := m.follow?_spec hsegments hm hfollow
  have hpath : x.path none ≠ "" := Sql.intercalate_ne_empty hall (by simp [SelectedRelation.keys])
  refine ⟨target, condition, htarget, hjoin, fun field hstored => ?_, fun y hy hyone keys hne hkeys => ?_⟩
  · have hreference : c.columnReference target field (joinOptions (x.path none)).qualifier? = .ok _ :=
      columnReference_of_isStored hstored hpath
    exact fun _ hholds _ _ hcompares => exists_comparesColumn hreference hholds hcompares hcondition
  · obtain ⟨_, hyowner, hyrelation⟩ := ReachedRelation.mem_reached_iff.1 hy
    obtain ⟨final, below, hfinal, _, hbelow⟩ := exists_joinsOn hplan hy hyone
    have hreach : target.follow? keys = some final := by
      have hwhole := ReachedRelation.follow?_keys hyowner hyrelation hyone hfinal
      rwa [hkeys, Member.follow?_append, hfollow, Option.bind_some] at hwhole
    have halias := path_eq_append hkeys hne
    refine ⟨final, hfinal, ⟨below, hbelow⟩, halias, fun field hstored => ⟨?_, fun h => ?_⟩⟩
    · -- The dotted key stands for one column, whatever qualifies the keys of the related entity itself.
      rw [← hregistry] at hsegments hmem
      have hrefers := refersTo_of_follow? (c := c) hsegments hmem hne hreach hstored
      exact fun _ hholds _ _ hcompares => hrefers.compared hcondition hholds hcompares
    · have hlength := congrArg String.length (aliasedColumn_inj h)
      rw [halias, String.length_append, String.length_append] at hlength
      have hdot : ".".length = 1 := rfl
      omega

/-- The units of items, by their names and the names of their categories. -/
theorem comparesUnder_joinCondition_items :
    let id : Field := { type := .integer }
    let name : Field := { type := .string }
    let up : Relation := { entity := "unit", cardinality := .manyToOne, keyPairs := [⟨"unitId", "id"⟩] }
    let kind : Relation := { entity := "category", cardinality := .manyToOne, keyPairs := [⟨"categoryId", "id"⟩] }
    let item : Entity :=
      { name := "item", fields := Assoc.ofPairs [("id", id), ("unitId", id)]
        relations := Assoc.ofPairs [("unit", up)] }
    let unit : Entity :=
      { name := "unit", fields := Assoc.ofPairs [("id", id), ("name", name), ("categoryId", id)]
        relations := Assoc.ofPairs [("category", kind)] }
    let category : Entity := { name := "category", fields := Assoc.ofPairs [("id", id), ("name", name)] }
    let m : Member := ⟨Registry.ofList [item, unit, category], item⟩
    let c : Compiler := { dialect := .postgres, expander := fun _ _ => .ok "" }
    let list : Filter :=
      [("name", .field (.value (.text "kg"))), ("category.name", .field (.value (.text "mass")))]
    let units : RelationQuery := { projection? := some (.map [("category", .flag true)]), filter? := some list }
    let projection : Projection := .map [("unit", .relation units)]
    let x : ReachedRelation := { parents := [], key := "unit", query := units, owner := m, relation := up }
    let y : ReachedRelation :=
      { parents := ["unit"], key := "category", query := {}, owner := ⟨m.registry, unit⟩, relation := kind }
    ∃ p condition, c.plan m (some projection) none = .ok p ∧ m.registry.HasSegmentKeys ∧ m ∈ m.registry.members ∧
      x ∈ m.reached projection.selected ∧ x.isToOne = true ∧ y ∈ m.reached projection.selected ∧
      y.isToOne = true ∧ y.keys = x.keys ++ ["category"] ∧
      c.JoinsOn m p x ⟨m.registry, unit⟩ condition ∧
      ComparesUnder list condition "name" [.name "unit", .word ".", .name "name"] ∧
      ComparesUnder list condition "category.name" [.name "category", .word ".", .name "name"] ∧
      y.path none = "unit.category" := by
  intro id name up kind item unit category m c list units projection x y
  have hplan : (c.plan m (some projection) none).toOption.isSome = true := by decide +kernel
  obtain ⟨p, hp⟩ := Option.isSome_iff_exists.1 hplan
  have hp := toOption_eq_some_iff.1 hp
  have hsegments : m.registry.HasSegmentKeys := by decide +kernel
  have hm : m ∈ m.registry.members := List.mem_of_getElem? (i := 0) rfl
  have hx : x ∈ m.reached projection.selected := ReachedRelation.mem_reached_iff.2 ⟨.head _, rfl, rfl⟩
  have hy : y ∈ m.reached projection.selected :=
    ReachedRelation.mem_reached_iff.2 ⟨.tail _ (.head _), rfl, rfl⟩
  obtain ⟨target, condition, htarget, hjoin, hplain, hdotted⟩ :=
    comparesUnder_joinCondition hsegments hm hp hx rfl rfl
  have hunit : x.owner.related x.key = .ok ⟨m.registry, unit⟩ := rfl
  obtain rfl := Except.ok.inj (htarget.symm.trans hunit)
  obtain ⟨final, hfinal, _, hpath, hcolumns⟩ := hdotted y hy rfl ["category"] (by simp) rfl
  have hcategory : y.owner.related y.key = .ok ⟨m.registry, category⟩ := rfl
  obtain rfl := Except.ok.inj (hfinal.symm.trans hcategory)
  exact ⟨p, condition, hp, hsegments, hm, hx, rfl, hy, rfl, rfl, hjoin, hplain "name" (by decide +kernel),
    (hcolumns "name" (by decide +kernel)).1, hpath⟩

/-- The category of the unit of an item is joined under the whole path, which the filter of the unit does not
find. -/
theorem misses_alias_of_category :
    let id : Field := { type := .integer }
    let name : Field := { type := .string }
    let item : Entity :=
      { name := "Item", fields := Assoc.ofPairs [("id", id), ("unitId", id)]
        relations := Assoc.ofPairs
          [("unit", { entity := "Unit", cardinality := .manyToOne, keyPairs := [⟨"unitId", "id"⟩] })] }
    let unit : Entity :=
      { name := "Unit", fields := Assoc.ofPairs [("id", id), ("name", name), ("categoryId", id)]
        relations := Assoc.ofPairs
          [("category", { entity := "Category", cardinality := .manyToOne, keyPairs := [⟨"categoryId", "id"⟩] })] }
    let category : Entity := { name := "Category", fields := Assoc.ofPairs [("id", id), ("name", name)] }
    let m : Member := ⟨Registry.ofList [item, unit, category], item⟩
    let c : Compiler := { dialect := .mysql, expander := fun _ _ => .ok "" }
    let list : Filter := [("category.name", .field (.value (.text "mass")))]
    let categories : RelationQuery := { projection? := some (.items [.field "name"]) }
    let units : RelationQuery :=
      { projection? := some (.map [("name", .flag true), ("category", .relation categories)]), filter? := some list }
    let query : Query := { projection? := some (.map [("id", .flag true), ("unit", .relation units)]) }
    (∃ condition, c.filterPredicate ⟨m.registry, unit⟩ (some list) (joinOptions "unit") = .ok condition ∧
      ¬ComparesUnder list condition "category.name" (aliasedColumn "unit.category" "name")) ∧
      (c.find m query).map c.dialect.render =
        .ok ("SELECT `Item`.`id`, `unit`.`id` `unit.id`, `unit`.`name` `unit.name`, " ++
          "`unit.category`.`id` `unit.category.id`, `unit.category`.`name` `unit.category.name` FROM `Item` " ++
          "LEFT JOIN `Unit` `unit` ON `unit`.`id` = `Item`.`unitId` AND `category`.`name` = 'mass' " ++
          "LEFT JOIN `Category` `unit.category` ON `unit.category`.`id` = `unit`.`categoryId`") := by
  intro id name item unit category m c list categories units query
  have hcondition : c.filterPredicate ⟨m.registry, unit⟩ (some list) (joinOptions "unit") =
      .ok [.atom [.name "category", .word ".", .name "name", .word " = ", .literal "mass"]] := rfl
  refine ⟨⟨_, hcondition, fun h => ?_⟩, by decide +kernel⟩
  obtain ⟨sql, hsql, hcompares⟩ := h _ (.entry (.head _)) _ _ (.value rfl)
  obtain rfl := Predicate.Token.atom.inj (List.mem_singleton.1 hsql)
  generalize hatom : [Sql.Piece.name "category", .word ".", .name "name", .word " = ", .literal "mass"] = atom
    at hcompares
  cases hcompares with
  | plain rest => exact absurd (List.cons.inj hatom).1 (by decide)
  | lowered rest => exact absurd (List.cons.inj hatom).1 (by decide)
  | none text hempty => cases hempty

end Compiler

end EntitySql
