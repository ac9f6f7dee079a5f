import EntitySql.Proofs.FollowUp.ParentKey
/-!
# Keys that a map leaves out

A map may say of a key that it is left out. Whatever else the map asks for, nothing then comes of the key in the
statement (`Compiler.leavesOut_find`): a field is not read, except for an id that tells the rows apart, and a relation
is neither joined nor put off, and does not qualify the columns.
-/

namespace EntitySql

namespace Entries

variable {α : Type} {key : String} {entries : List (String × α)}

/-- The entries under other keys. -/
def without (key : String) (entries : List (String × α)) : List (String × α) := entries.filter (·.1 ≠ key)

theorem eq_of_mem {value other : α} (hnodup : (entries.map Prod.fst).Nodup) (h : (key, value) ∈ entries)
    (hother : (key, other) ∈ entries) : value = other :=
  Option.some.inj (((find?_eq_some_iff hnodup).2 h).symm.trans ((find?_eq_some_iff hnodup).2 hother))

end Entries

namespace Compiler

variable {m : Member} {key : String} {entries : List (String × ProjectionEntry)}

theorem leavesOut_of_mem (hnodup : (entries.map Prod.fst).Nodup) (h : (key, .flag false) ∈ entries) :
    leavesOut entries key = true := by
  rw [leavesOut, (Entries.find?_eq_some_iff hnodup).2 h]
  rfl

theorem not_asksFor_of_mem (hnodup : (entries.map Prod.fst).Nodup) (h : (key, .flag false) ∈ entries) :
    ¬AsksFor m entries key := by
  rintro ⟨_, hincluded | ⟨_, hkept⟩⟩
  · cases Entries.eq_of_mem hnodup h hincluded
  · rw [leavesOut_of_mem hnodup h] at hkept
    cases hkept

/-- Whether a map asks for a relation is up to the other keys. -/
theorem selectsRelation_without (hnodup : (entries.map Prod.fst).Nodup) (h : (key, .flag false) ∈ entries) :
    selectsRelation m (some (.map entries)) = selectsRelation m (some (.map (Entries.without key entries))) := by
  rw [Bool.eq_iff_iff, selectsRelation, selectsRelation, List.any_eq_true, List.any_eq_true]
  refine exists_congr fun selected => and_congr_left fun hselected => ?_
  obtain ⟨name, entry⟩ := selected
  rw [Entries.without, List.mem_filter, iff_self_and, decide_eq_true_iff]
  rintro hentry rfl
  rw [Entries.eq_of_mem hnodup hentry h] at hselected
  simp [ProjectionEntry.isExcluded] at hselected

end Compiler

open Compiler

/-- Whether nothing comes of a key in the map by which rows are read: the field is not among what is read of them,
except for the id where columns are qualified, no relation is reached by the key, and the columns are qualified as
they are without it. -/
structure RowSource.LeavesOut (s : RowSource) (reached : List ReachedRelation)
    (entries : List (String × ProjectionEntry)) (key : String) : Prop where
  field : .field key ∈ s.items ↔
    key = s.owner.entity.id ∧ isQualified s.owner (some (.map (Entries.without key entries))) s.options = true
  relation : ∀ x ∈ reached, x.keys ≠ s.keys ++ [key]
  qualifier : s.qualifier? = rootQualifier? s.owner (some (.map (Entries.without key entries))) s.options

namespace Member

variable {m : Member} {projection : Projection} {options : FindOptions} {s : RowSource} {key : String}
  {entries : List (String × ProjectionEntry)}

/-- A relation stands in the map of the source from which it starts. -/
theorem exists_askFor_of_mem_sources (hunambiguous : projection.IsUnambiguous)
    (hs : s ∈ m.sources (some projection) options) {x : SelectedRelation} (hx : x ∈ projection.selected)
    (hparents : x.parents = s.keys) :
    ∃ entries, s.projection? = some (.map entries) ∧ ProjectionEntry.AskFor entries x.key x.query := by
  rcases mem_sources_iff.1 hs with rfl | ⟨y, hy, target, _, rfl⟩
  · rcases (Projection.mem_selected_iff.1 hx).root_or_parent with ⟨_, entries, rfl, hasked⟩ | ⟨z, _, hkeys, _⟩
    · exact ⟨entries, rfl, hasked⟩
    · rw [hparents] at hkeys
      exact absurd hkeys (by simp [SelectedRelation.keys])
  · have hselected := (ReachedRelation.mem_reached_iff.1 (List.mem_filter.1 hy).1).1
    rw [Option.toList_some, List.flatMap_singleton] at hselected
    rcases (Projection.mem_selected_iff.1 hx).root_or_parent with ⟨hnil, _⟩ | ⟨z, hz, hkeys, entries, hmap, hasked⟩
    · rw [hparents] at hnil
      exact absurd hnil (by simp [ReachedRelation.sourceOf, SelectedRelation.keys])
    · -- The same keys lead to no two relations, so that the relation above is that of the source.
      obtain rfl := List.inj_on_of_nodup_map (projection.nodup_keys_selected hunambiguous)
        (Projection.mem_selected_iff.2 hz) hselected (hkeys.trans hparents)
      exact ⟨entries, hmap, hasked⟩

/-- Nothing comes of a key that the map of a source leaves out. -/
theorem leavesOut_of_mem_sources (hunambiguous : projection.IsUnambiguous)
    (hs : s ∈ m.sources (some projection) options) (hmap : s.projection? = some (.map entries))
    (hexcluded : (key, .flag false) ∈ entries) : s.LeavesOut (m.reached projection.selected) entries key := by
  have hwhole : ∀ whole ∈ some projection, whole.IsUnambiguous := by
    rintro _ ⟨⟩
    exact hunambiguous
  have hnodup : (entries.map Prod.fst).Nodup := (isUnambiguous_of_mem_sources hwhole hs _ hmap).1
  have hqualifier : rootQualifier? s.owner (some (.map entries)) s.options =
      rootQualifier? s.owner (some (.map (Entries.without key entries))) s.options :=
    rootQualifier?_congr (selectsRelation_without hnodup hexcluded)
  refine ⟨?_, fun x hx hkeys => ?_, ?_⟩
  · rw [RowSource.items, mem_rootItems_iff, hmap, asksFor_iff, or_iff_right (not_asksFor_of_mem hnodup hexcluded),
      isQualified, isQualified, hqualifier]
    simp [and_comm]
  · obtain ⟨hparents, hkey⟩ := List.append_inj' hkeys rfl
    obtain ⟨inner, hinner, entry, hentry, hquery⟩ :=
      exists_askFor_of_mem_sources hunambiguous hs (ReachedRelation.mem_reached_iff.1 hx).1 hparents
    rw [hmap] at hinner
    cases hinner
    rw [List.singleton_inj.1 hkey] at hentry
    cases Entries.eq_of_mem hnodup hexcluded hentry
    cases hquery
  · rw [RowSource.qualifier?, hmap, hqualifier]

end Member

namespace Compiler

variable {c : Compiler} {m : Member} {query : Query} {options : FindOptions}

/-- The joins of a statement are those of the plan of its projection. -/
theorem ensures_readClauses_joins (c : Compiler) (m : Member) (query : Query) (options : FindOptions) :
    Ensures (fun clauses => ∃ plan, c.plan m query.projection? none = .ok plan ∧ clauses.joins = plan.tables)
      (c.readClauses m query options) :=
  .bind_any fun _ => .bind_ok fun plan hplan => .bind_any fun _ => .bind_any fun _ => .bind_any fun _ =>
    .bind_any fun _ => .pure ⟨plan, hplan, rfl⟩

/-- The statement of a map reads its sources and joins the relations that are reached. Nothing comes of a key that
the map of the query, or the map of a joined relation, leaves out. -/
theorem leavesOut_find {entries : List (String × ProjectionEntry)}
    (hprojection : query.projection? = some (.map entries)) (hunambiguous : (Projection.map entries).IsUnambiguous)
    {sql : Sql} (hfind : c.find m query options = .ok sql) :
    let selected := (Projection.map entries).selected
    ∃ groups clauses plan, c.ReadsSources (m.sources query.projection? options) groups sql ∧
      c.readClauses m query options = .ok clauses ∧ sql = clauses.toSql ∧
      c.plan m query.projection? none = .ok plan ∧ clauses.joins = plan.tables ∧ c.Covers m none selected plan ∧
      ∀ s ∈ m.sources query.projection? options, ∀ inner key, s.projection? = some (.map inner) →
        (key, .flag false) ∈ inner → s.LeavesOut (m.reached selected) inner key := by
  intro selected
  obtain ⟨groups, hreads⟩ := ensures_readsSources c m query options sql hfind
  rw [find_eq] at hfind
  obtain ⟨clauses, hclauses, hfind⟩ := ok_of_bind_eq_ok hfind
  cases hfind
  obtain ⟨plan, hplan, hjoins⟩ := ensures_readClauses_joins c m query options clauses hclauses
  have hcovers := covers_of_plan hplan
  rw [hprojection, Option.toList_some, List.flatMap_singleton] at hcovers
  refine ⟨groups, clauses, plan, hreads, hclauses, rfl, hplan, hjoins, hcovers,
    fun s hs inner key hmap hexcluded => ?_⟩
  rw [hprojection] at hs
  exact Member.leavesOut_of_mem_sources hunambiguous hs hmap hexcluded

/-- Users without their passwords and invoices, each with the name of the team, whose owner is left out. -/
theorem leavesOut_find_users :
    let id : Field := { type := .integer }
    let name : Field := { type := .string }
    let user : Entity :=
      { name := "user", fields := Assoc.ofPairs [("id", id), ("password", name), ("teamId", id), ("email", name)]
        relations := Assoc.ofPairs
          [("team", { entity := "team", cardinality := .manyToOne, keyPairs := [⟨"teamId", "id"⟩] }),
            ("invoices", { entity := "invoice", cardinality := .oneToMany, keyPairs := [⟨"id", "userId"⟩] })] }
    let team : Entity :=
      { name := "team", fields := Assoc.ofPairs [("id", id), ("name", name), ("secret", name), ("ownerId", id)]
        relations := Assoc.ofPairs
          [("owner", { entity := "user", cardinality := .manyToOne, keyPairs := [⟨"ownerId", "id"⟩] })] }
    let invoice : Entity := { name := "invoice", fields := Assoc.ofPairs [("id", id), ("userId", id)] }
    let m : Member := ⟨Registry.ofList [user, team, invoice], user⟩
    let c : Compiler := { dialect := .mysql, expander := fun _ _ => .ok "" }
    let inner : List (String × ProjectionEntry) :=
      [("id", .flag false), ("secret", .flag false), ("owner", .flag false)]
    let entries : List (String × ProjectionEntry) :=
      [("password", .flag false), ("team", .relation { projection? := some (.map inner) }),
        ("invoices", .flag false)]
    let query : Query := { projection? := some (.map entries) }
    let root : RowSource := { keys := [], owner := m, projection? := query.projection?, options := {} }
    let teams : RowSource :=
      { keys := ["team"], owner := ⟨m.registry, team⟩, projection? := some (.map inner)
        options := { qualifier? := some "team" } }
    let text :=
      "SELECT `user`.`id`, `user`.`teamId`, `user`.`email`, `team`.`id` `team.id`, `team`.`name` `team.name`, " ++
        "`team`.`ownerId` `team.ownerId` FROM `user` LEFT JOIN `team` `team` ON `team`.`id` = `user`.`teamId`"
    (Projection.map entries).IsUnambiguous ∧ (∃ sql, c.find m query = .ok sql ∧ c.dialect.render sql = text) ∧
      m.sources query.projection? {} = [root, teams] ∧ .field "password" ∉ root.items ∧
      .field "secret" ∉ teams.items ∧ .field "id" ∈ teams.items ∧
      ∀ x ∈ m.reached (Projection.map entries).selected, x.keys ≠ ["invoices"] ∧ x.keys ≠ ["team", "owner"] := by
  intro id name user team invoice m c inner entries query root teams text
  have hunambiguous : (Projection.map entries).IsUnambiguous := by
    simp [entries, inner, Projection.IsUnambiguous, ProjectionEntry.AreUnambiguous, ProjectionEntry.IsUnambiguous,
      RelationQuery.IsUnambiguous]
  have hfind : ((c.find m query).toOption.map c.dialect.render) = some text := by decide +kernel
  obtain ⟨sql, hfind, htext⟩ := exists_of_map_toOption_eq_some hfind
  have hsources : m.sources query.projection? {} = [root, teams] := rfl
  obtain ⟨_, _, _, _, _, _, _, _, _, hexcluded⟩ := leavesOut_find rfl hunambiguous hfind
  have hroot : root ∈ m.sources query.projection? {} := hsources ▸ .head _
  have hteams : teams ∈ m.sources query.projection? {} := hsources ▸ .tail _ (.head _)
  have hpassword := hexcluded root hroot entries "password" rfl (.head _)
  have hinvoices := hexcluded root hroot entries "invoices" rfl (.tail _ (.tail _ (.head _)))
  have hid := hexcluded teams hteams inner "id" rfl (.head _)
  have hsecret := hexcluded teams hteams inner "secret" rfl (.tail _ (.head _))
  have howner := hexcluded teams hteams inner "owner" rfl (.tail _ (.tail _ (.head _)))
  refine ⟨hunambiguous, ⟨sql, hfind, htext⟩, hsources, fun h => ?_, fun h => ?_, hid.field.2 ⟨by decide +kernel, rfl⟩,
    fun x hx => ⟨hinvoices.relation x hx, howner.relation x hx⟩⟩
  · exact absurd (hpassword.field.1 h).1 (by decide +kernel)
  · exact absurd (hsecret.field.1 h).1 (by decide +kernel)

end Compiler

end EntitySql
