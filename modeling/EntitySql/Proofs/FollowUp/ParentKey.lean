import EntitySql.Proofs.Joins.Sources
/-!
# Keys of parents

The rows of a deferred relation are looked up by a key of the rows that were read before, its parents. Only the id of
the parents is read without being asked for. A relation may start from another field, and that one is there if the map
in which the relation stands asks for it (`DeferredRelation.parentKey_mem_items_iff`).
-/

namespace EntitySql

namespace Registry

theorem isNamed_ofList (entities : List Entity) : (ofList entities).entities.IsNamed Entity.name := by
  have hfold : ∀ r : Registry, r.entities.IsNamed Entity.name →
      (entities.foldl register r).entities.IsNamed Entity.name := by
    induction entities with
    | nil => exact fun _ h => h
    | cons e rest ih => exact fun r h => ih (r.register e) (h.insert rfl)
  exact hfold {} Assoc.IsNamed.empty

theorem member_of_mem {r : Registry} (hnamed : r.entities.IsNamed Entity.name) {m : Member} (hm : m ∈ r.members) :
    r.member m.entity.name = .ok m := by
  obtain ⟨e, he, rfl⟩ := List.mem_map.1 hm
  rw [member, hnamed.get?_of_mem he]

end Registry

namespace Compiler

variable {c : Compiler} {m : Member} {key : String} {entries : List (String × ProjectionEntry)}

/-- Whether a map asks for a field: it includes the field, or it includes none and does not leave this one out. -/
def AsksFor (m : Member) (entries : List (String × ProjectionEntry)) (key : String) : Prop :=
  m.entity.hasField key = true ∧
    ((key, .flag true) ∈ entries ∨ ¬IncludesField m entries ∧ leavesOut entries key = false)

theorem asksFor_iff : .field key ∈ projectedItems m (some (.map entries)) ↔ AsksFor m entries key := by
  rw [mem_projectedItems_map_iff]
  constructor
  · rintro (⟨⟨name, entry⟩, hentry, hfield, hincluded, hkey⟩ | ⟨hnone, field, hfield, hkept, hkey⟩)
    · obtain rfl := ProjectionItem.field.inj hkey
      cases entry with
      | flag included =>
        obtain rfl : included = true := hincluded
        exact ⟨hfield, .inl hentry⟩
      | relation query => cases hincluded
    · obtain rfl := ProjectionItem.field.inj hkey
      exact ⟨Assoc.contains_iff.2 hfield, .inr ⟨hnone, hkept⟩⟩
  · rintro ⟨hfield, hentry | ⟨hnone, hkept⟩⟩
    · exact .inl ⟨_, hentry, hfield, rfl, rfl⟩
    · exact .inr ⟨hnone, key, Assoc.contains_iff.1 hfield, hkept, rfl⟩

/-- A map that asks for a relation qualifies what it asks for. -/
theorem isQualified_of_askFor {options : FindOptions} {query : RelationQuery}
    (h : ProjectionEntry.AskFor entries key query) (hkey : m.entity.relations.contains key = true) :
    isQualified m (some (.map entries)) options = true := by
  obtain ⟨entry, hentry, hquery⟩ := h
  have hincluded := ProjectionEntry.isExcluded_eq_false hquery
  have hselects : selectsRelation m (some (.map entries)) = true :=
    List.any_eq_true.2 ⟨_, hentry, by simp [hkey, hincluded]⟩
  rw [isQualified, rootQualifier?, hselects, Bool.or_true]
  cases options.qualifier? <;> rfl

end Compiler

namespace RowSource

open Compiler

/-- Behind a qualifier the id is read, and what the map asks for. -/
theorem mem_items_iff {s : RowSource} {inner : List (String × ProjectionEntry)} {key : String}
    (hmap : s.projection? = some (.map inner)) (hqualified : isQualified s.owner s.projection? s.options = true) :
    .field key ∈ s.items ↔ key = s.owner.entity.id ∨ AsksFor s.owner inner key := by
  rw [items, mem_rootItems_iff, hqualified, hmap, asksFor_iff, or_comm]
  simp

end RowSource

namespace DeferredRelation

open Compiler

variable {c : Compiler} {m : Member} {query : Query} {options : FindOptions} {plan : JoinPlan}
  {d : DeferredRelation}

theorem resolve_eq {r : Registry} {owner : Member} {relation : Relation} (howner : r.member d.owner = .ok owner)
    (hrelation : owner.entity.relations.get? d.relation = some relation) : d.resolve r = .ok (owner, relation) := by
  rw [resolve, howner]
  change owner.relation d.relation >>= _ = _
  rw [Member.relation, hrelation]
  rfl

theorem exists_parentKey {r : Registry} {owner : Member} {relation : Relation}
    (hresolve : d.resolve r = .ok (owner, relation)) : ∃ key, d.parentKey r = .ok key := by
  obtain ⟨entity, cardinality, keyPairs, through?, cascade⟩ := relation
  rw [parentKey, hresolve]
  cases keyPairs <;> exact ⟨_, rfl⟩

/-- The map in which a deferred relation stands is that of a source of the rows that are read. -/
theorem exists_source {entries : List (String × ProjectionEntry)}
    (hplan : c.plan m (some (.map entries)) none = .ok plan) (hd : d ∈ plan.deferred) :
    ∃ s ∈ m.sources (some (.map entries)) options, ∃ inner relation,
      d.owner = s.owner.entity.name ∧ s.owner.entity.relations.get? d.relation = some relation ∧
      d.path = ".".intercalate (s.keys ++ [d.relation]) ∧ s.projection? = some (.map inner) ∧
      ProjectionEntry.AskFor inner d.relation d.query ∧ isQualified s.owner s.projection? s.options = true := by
  rw [(covers_of_plan hplan).deferred] at hd
  obtain ⟨x, hx, rfl⟩ := List.mem_map.1 hd
  obtain ⟨hselected, howner, hrelation⟩ := ReachedRelation.mem_reached_iff.1 (List.mem_filter.1 hx).1
  rw [Option.toList_some, List.flatMap_singleton] at hselected
  rcases (Projection.mem_selected_iff.1 hselected).root_or_parent with
    ⟨hparents, _, hmap, hasked⟩ | ⟨y, hy, hkeys, inner, hinner, hasked⟩
  · -- At the root the relation itself is what qualifies the columns, so that the id is read.
    cases hmap
    rw [hparents] at howner
    cases howner
    refine ⟨_, .head _, entries, x.relation, rfl, hrelation, ?_, rfl, hasked, ?_⟩
    · rw [ReachedRelation.deferral, ReachedRelation.path, SelectedRelation.keys, hparents]
      rfl
    · exact isQualified_of_askFor hasked
        ((Assoc.contains_eq_isSome _ _).trans (by rw [hrelation, Option.isSome_some]))
  · have hy' : y ∈ (some (Projection.map entries)).toList.flatMap Projection.selected := by
      rw [Option.toList_some, List.flatMap_singleton]
      exact Projection.mem_selected_iff.2 hy
    refine ⟨_, Member.mem_sources_of_selected hy' (hkeys ▸ howner), inner, x.relation, rfl, hrelation, ?_, hinner,
      hasked, rfl⟩
    rw [hkeys]
    rfl

/-- The statement of a map reads its sources, and each deferred relation stands in the map of one of them. That source
holds the key of the parents if and only if the key is the id or the map asks for it. -/
theorem parentKey_mem_items_iff {entries : List (String × ProjectionEntry)}
    (hprojection : query.projection? = some (.map entries)) (hm : m ∈ m.registry.members)
    (hnamed : m.registry.entities.IsNamed Entity.name) {sql : Sql} (hfind : c.find m query options = .ok sql)
    (hplan : c.plan m query.projection? none = .ok plan) (hd : d ∈ plan.deferred) :
    (∃ groups, c.ReadsSources (m.sources query.projection? options) groups sql) ∧
    ∃ s ∈ m.sources query.projection? options, ∃ inner key,
      s.owner.entity.name = d.owner ∧ d.path = ".".intercalate (s.keys ++ [d.relation]) ∧
      s.projection? = some (.map inner) ∧ ProjectionEntry.AskFor inner d.relation d.query ∧
      d.parentKey m.registry = .ok key ∧
      (.field key ∈ s.items ↔ key = s.owner.entity.id ∨ AsksFor s.owner inner key) := by
  refine ⟨ensures_readsSources c m query options sql hfind, ?_⟩
  rw [hprojection] at hplan ⊢
  obtain ⟨s, hs, inner, relation, howner, hrelation, hpath, hmap, hasked, hqualified⟩ := exists_source hplan hd
  obtain ⟨hregistry, hmem⟩ := Member.mem_members_of_follow? hm (Member.follow?_of_mem_sources hs)
  have hmember : m.registry.member d.owner = .ok s.owner := by
    rw [howner]
    exact Registry.member_of_mem hnamed hmem
  obtain ⟨key, hkey⟩ := exists_parentKey (resolve_eq hmember hrelation)
  exact ⟨s, hs, inner, key, howner.symm, hpath, hmap, hasked, hkey, RowSource.mem_items_iff hmap hqualified⟩

/-- Units refer to their categories by codes, and their categories are read with the codes and all units. -/
theorem parentKey_mem_items_iff_units :
    let id : Field := { type := .integer }
    let code : Field := { type := .string }
    let category : Entity :=
      { name := "category", fields := Assoc.ofPairs [("id", id), ("code", code), ("name", code)]
        relations := Assoc.ofPairs
          [("units", { entity := "unit", cardinality := .oneToMany, keyPairs := [⟨"code", "categoryCode"⟩] })] }
    let unit : Entity :=
      { name := "unit", fields := Assoc.ofPairs [("id", id), ("categoryCode", code)]
        relations := Assoc.ofPairs
          [("category", { entity := "category", cardinality := .manyToOne, keyPairs := [⟨"categoryCode", "code"⟩] })] }
    let m : Member := ⟨Registry.ofList [category, unit], unit⟩
    let c : Compiler := { dialect := .mysql, expander := fun _ _ => .ok "" }
    let inner : List (String × ProjectionEntry) := [("code", .flag true), ("units", .flag true)]
    let query : Query :=
      { projection? := some (.map [("category", .relation { projection? := some (.map inner) })]) }
    let d : DeferredRelation := { path := "category.units", owner := "category", relation := "units", query := {} }
    ∃ sql plan, c.find m query = .ok sql ∧ c.plan m query.projection? none = .ok plan ∧ d ∈ plan.deferred ∧
      m ∈ m.registry.members ∧ d.parentKey m.registry = .ok "code" ∧
      (∃ groups, c.ReadsSources (m.sources query.projection? {}) groups sql) ∧
      ∃ s ∈ m.sources query.projection? {}, s.owner.entity.name = "category" ∧ .field "code" ∈ s.items := by
  intro id code category unit m c inner query d
  have hplan : ((c.plan m query.projection? none).toOption.map fun p => p.deferred) = some [d] := rfl
  have hfind : (c.find m query).toOption.isSome = true := by decide +kernel
  obtain ⟨plan, hplan, hdeferred⟩ := Option.map_eq_some_iff.1 hplan
  obtain ⟨sql, hfind⟩ := Option.isSome_iff_exists.1 hfind
  have hplan := toOption_eq_some_iff.1 hplan
  have hfind := toOption_eq_some_iff.1 hfind
  have hd : d ∈ plan.deferred := hdeferred ▸ .head _
  have hm : m ∈ m.registry.members := List.mem_of_getElem? (i := 1) rfl
  have hparent : d.parentKey m.registry = .ok "code" := rfl
  obtain ⟨hreads, s, hs, map, key, howner, _, hmap, _, hkey, hiff⟩ :=
    parentKey_mem_items_iff rfl hm (Registry.isNamed_ofList _) hfind hplan hd
  obtain rfl := Except.ok.inj (hkey.symm.trans hparent)
  refine ⟨sql, plan, hfind, hplan, hd, hm, hparent, hreads, s, hs, howner, hiff.2 (.inr ?_)⟩
  have hsources : m.sources query.projection? {} =
      [{ keys := [], owner := m, projection? := query.projection?, options := {} },
        { keys := ["category"], owner := ⟨m.registry, category⟩, projection? := some (.map inner)
          options := { qualifier? := some "category" } }] := rfl
  rw [hsources, List.mem_cons, List.mem_singleton] at hs
  rcases hs with rfl | rfl
  · exact absurd howner (by decide)
  · cases hmap
    exact ⟨by decide +kernel, .inl (.head _)⟩

/-- The units of a category are looked up by its code, which is not read along with its name. -/
theorem misses_code_of_category :
    let id : Field := { type := .integer }
    let code : Field := { type := .string }
    let category : Entity :=
      { name := "Category", fields := Assoc.ofPairs [("id", id), ("code", code), ("name", code)]
        relations := Assoc.ofPairs
          [("units", { entity := "Unit", cardinality := .oneToMany, keyPairs := [⟨"code", "categoryCode"⟩] })] }
    let unit : Entity :=
      { name := "Unit", fields := Assoc.ofPairs [("id", id), ("name", code), ("categoryCode", code)] }
    let m : Member := ⟨Registry.ofList [category, unit], category⟩
    let c : Compiler := { dialect := .mysql, expander := fun _ _ => .ok "" }
    let query : Query := { projection? := some (.map [("name", .flag true), ("units", .flag true)]) }
    let d : DeferredRelation := { path := "units", owner := "Category", relation := "units", query := {} }
    ((c.plan m query.projection? none).toOption.map fun p => p.deferred) = some [d] ∧
      d.parentKey m.registry = .ok "code" ∧
      (∀ s ∈ m.sources query.projection? {}, s.items = [.field "id", .field "name"]) ∧
      (c.find m query).map c.dialect.render = .ok "SELECT `Category`.`id`, `Category`.`name` FROM `Category`" := by
  intro id code category unit m c query d
  refine ⟨rfl, rfl, fun s hs => ?_, by decide +kernel⟩
  have hsources : m.sources query.projection? {} =
      [{ keys := [], owner := m, projection? := query.projection?, options := {} }] := rfl
  rw [hsources, List.mem_singleton] at hs
  rw [hs]
  decide +kernel

end DeferredRelation

end EntitySql
