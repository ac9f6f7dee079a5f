import EntitySql.Proofs.Clauses
import EntitySql.Proofs.FollowUp.Projection
/-!
# Sources of the rows that a query reads

A query reads the rows of its entity and those of the relations that it joins, and for each of them the expressions of
a projection. `Member.sources` lists where rows come from, in the order in which the statement names what it reads of
them (`Compiler.ensures_readsSources`). Which projections lie inside one another is told by `Projection.Selects`.
-/

namespace EntitySql

/-! ## Projections inside one another -/

/-- What an entry asks of a relation under its key. -/
def ProjectionEntry.query? : ProjectionEntry → Option RelationQuery
  | .flag false => none
  | .flag true => some {}
  | .relation query => some query

/-- Whether entries ask something of the relation under the key. -/
def ProjectionEntry.AskFor (entries : List (String × ProjectionEntry)) (key : String) (query : RelationQuery) : Prop :=
  ∃ entry, (key, entry) ∈ entries ∧ entry.query? = some query

/-- Whether a projection asks for a relation. -/
inductive Projection.Selects : Projection → SelectedRelation → Prop
  | root {entries : List (String × ProjectionEntry)} {key : String} {entry : ProjectionEntry}
      {query : RelationQuery} : (key, entry) ∈ entries → entry.query? = some query →
      (Projection.map entries).Selects { parents := [], key, query }
  | nested {entries : List (String × ProjectionEntry)} {key : String} {query : RelationQuery} {inner : Projection}
      {x : SelectedRelation} : (key, .relation query) ∈ entries → query.projection? = some inner →
      inner.Selects x → (Projection.map entries).Selects (x.below key)

-- The entries that are left are taken apart one by one, but a relation is selected by the map of all of them, which is
-- therefore kept beside.
mutual

theorem Projection.selects_of_mem : ∀ (projection : Projection) {x : SelectedRelation},
    x ∈ projection.selected → projection.Selects x
  | .items _, _, h => nomatch h
  | .map entries, _, h => ProjectionEntry.selects_of_mem_entries entries (List.Subset.refl _) h

theorem ProjectionEntry.selects_of_mem_entries : ∀ (entries : List (String × ProjectionEntry))
    {all : List (String × ProjectionEntry)}, entries ⊆ all → ∀ {x : SelectedRelation},
    x ∈ ProjectionEntry.selectedOfEntries entries → (Projection.map all).Selects x
  | [], _, _, _, h => nomatch h
  | (_, entry) :: rest, _, hall, _, h => by
    rcases List.mem_append.1 h with h | h
    · exact ProjectionEntry.selects_of_mem entry (hall (.head _)) h
    · exact ProjectionEntry.selects_of_mem_entries rest (fun _ hmem => hall (.tail _ hmem)) h

theorem ProjectionEntry.selects_of_mem : ∀ (entry : ProjectionEntry) {key : String}
    {all : List (String × ProjectionEntry)}, (key, entry) ∈ all → ∀ {x : SelectedRelation},
    x ∈ entry.selected key → (Projection.map all).Selects x
  | .flag false, _, _, _, _, h => nomatch h
  | .flag true, _, _, hentry, _, h => by
    rw [List.mem_singleton.1 h]
    exact .root hentry rfl
  | .relation query, _, _, hentry, _, h => by
    rcases List.mem_cons.1 h with rfl | h
    · exact .root hentry rfl
    · obtain ⟨y, hy, rfl⟩ := List.mem_map.1 h
      obtain ⟨inner, hinner, hselects⟩ := RelationQuery.selects_of_mem query hy
      exact .nested hentry hinner hselects

theorem RelationQuery.selects_of_mem : ∀ (query : RelationQuery) {x : SelectedRelation}, x ∈ query.selected →
    ∃ inner, query.projection? = some inner ∧ inner.Selects x
  | ⟨some projection, _, _, _, _, _⟩, _, h => ⟨projection, rfl, projection.selects_of_mem h⟩
  | ⟨none, _, _, _, _, _⟩, _, h => nomatch h

end

namespace ProjectionEntry

variable {entries : List (String × ProjectionEntry)} {key : String} {entry : ProjectionEntry}

theorem selected_subset (h : (key, entry) ∈ entries) : entry.selected key ⊆ selectedOfEntries entries := by
  induction entries with
  | nil => cases h
  | cons first rest ih =>
    rcases List.mem_cons.1 h with rfl | h
    · exact List.subset_append_left _ _
    · exact List.Subset.trans (ih h) (List.subset_append_right _ _)

/-- An entry that asks something of a relation asks for it first. -/
theorem mem_selected_of_query? {query : RelationQuery} (h : entry.query? = some query) :
    { parents := [], key, query } ∈ entry.selected key := by
  match entry with
  | .flag false => cases h
  | .flag true =>
    cases h
    exact .head _
  | .relation _ =>
    cases h
    exact .head _

theorem isExcluded_eq_false {query : RelationQuery} (h : entry.query? = some query) : entry.isExcluded = false := by
  match entry with
  | .flag false => cases h
  | .flag true => rfl
  | .relation _ => rfl

/-- Entries are unambiguous if each of them is. -/
theorem areUnambiguous_iff : AreUnambiguous entries ↔ ∀ entry ∈ entries, entry.2.IsUnambiguous := by
  induction entries with
  | nil => simp [AreUnambiguous]
  | cons first rest ih =>
    rw [AreUnambiguous, ih, List.forall_mem_cons]

end ProjectionEntry

theorem RelationQuery.selected_of_projection? {query : RelationQuery} {inner : Projection}
    (h : query.projection? = some inner) : query.selected = inner.selected := by
  obtain ⟨projection?⟩ := query
  cases h
  rfl

theorem RelationQuery.isUnambiguous_iff {query : RelationQuery} :
    query.IsUnambiguous ↔ ∀ inner ∈ query.projection?, inner.IsUnambiguous := by
  obtain ⟨projection?⟩ := query
  cases projection? <;> simp [RelationQuery.IsUnambiguous]

namespace Projection

variable {projection : Projection} {x : SelectedRelation}

theorem mem_selected_iff : x ∈ projection.selected ↔ projection.Selects x := by
  refine ⟨projection.selects_of_mem, fun h => ?_⟩
  induction h with
  | root hentry hquery => exact ProjectionEntry.selected_subset hentry (ProjectionEntry.mem_selected_of_query? hquery)
  | @nested entries key query inner x hentry hinner _ ih =>
    have hmem : x.below key ∈ query.selected.map (·.below key) :=
      List.mem_map_of_mem (by rwa [RelationQuery.selected_of_projection? hinner])
    exact ProjectionEntry.selected_subset hentry (List.mem_cons_of_mem _ hmem)

/-- A relation that is selected at the root stands in the map, and any other in the map of the relation above. -/
theorem Selects.root_or_parent (h : projection.Selects x) :
    x.parents = [] ∧ (∃ entries, projection = .map entries ∧ ProjectionEntry.AskFor entries x.key x.query) ∨
      ∃ y, projection.Selects y ∧ y.keys = x.parents ∧
        ∃ inner, y.query.projection? = some (.map inner) ∧ ProjectionEntry.AskFor inner x.key x.query := by
  induction h with
  | root hentry hquery => exact .inl ⟨rfl, _, rfl, _, hentry, hquery⟩
  | @nested entries key query inner x hentry hinner _ ih =>
    rcases ih with ⟨hparents, nested, rfl, hmap⟩ | ⟨y, hy, hkeys, hmap⟩
    · refine .inr ⟨{ parents := [], key, query }, .root hentry rfl, ?_, nested, hinner, hmap⟩
      rw [SelectedRelation.below, hparents]
      rfl
    · refine .inr ⟨y.below key, .nested hentry hinner hy, ?_, hmap⟩
      rw [SelectedRelation.below, SelectedRelation.below, SelectedRelation.keys, List.cons_append, ← hkeys]
      rfl

/-- What is unambiguous asks for relations by projections that are. -/
theorem Selects.isUnambiguous (h : projection.Selects x) (hunambiguous : projection.IsUnambiguous) :
    x.query.IsUnambiguous := by
  induction h with
  | @root entries key entry query hentry hquery =>
    have hhere := ProjectionEntry.areUnambiguous_iff.1 hunambiguous.2 _ hentry
    match entry with
    | .flag false => cases hquery
    | .flag true =>
      cases hquery
      trivial
    | .relation _ =>
      cases hquery
      exact hhere
  | nested hentry hinner _ ih =>
    have hhere : RelationQuery.IsUnambiguous _ := ProjectionEntry.areUnambiguous_iff.1 hunambiguous.2 _ hentry
    exact ih (RelationQuery.isUnambiguous_iff.1 hhere _ hinner)

end Projection

/-! ## Sources -/

/-- Rows that a statement reads. -/
structure RowSource where
  /-- The keys of the relations that lead to the rows. -/
  keys : List String
  /-- The entity of the rows. -/
  owner : Member
  /-- What is asked of them. -/
  projection? : Option Projection
  options : FindOptions

namespace RowSource

open Compiler

/-- What is read of the rows. -/
def items (s : RowSource) : List ProjectionItem := rootItems s.owner s.projection? s.options

/-- The name that qualifies their columns. -/
def qualifier? (s : RowSource) : Option String := rootQualifier? s.owner s.projection? s.options

/-- The expressions for what is read. Those of joined rows have names that start with the path. -/
def expressions (s : RowSource) (c : Compiler) : Except QueryError (List Sql) :=
  s.items.mapM (c.projectedItem s.owner s.qualifier? (!s.keys.isEmpty))

end RowSource

namespace ReachedRelation

/-- The rows of the entity at the other end, behind the alias of the join. -/
def sourceOf (x : ReachedRelation) (owner : Member) : RowSource :=
  { keys := x.keys, owner, projection? := x.query.projection?, options := { qualifier? := some (x.path none) } }

/-- The rows that are joined for a relation. -/
def source? (x : ReachedRelation) : Option RowSource := (x.owner.related x.key).toOption.map x.sourceOf

theorem source?_eq_some_iff {x : ReachedRelation} {s : RowSource} :
    x.source? = some s ↔ ∃ target, x.owner.related x.key = .ok target ∧ s = x.sourceOf target := by
  rw [source?, Option.map_eq_some_iff]
  exact exists_congr fun target => and_congr toOption_eq_some_iff eq_comm

end ReachedRelation

/-- The sources of the rows that a query reads: its entity and the relations that it joins. -/
def Member.sources (m : Member) (projection? : Option Projection) (options : FindOptions) : List RowSource :=
  { keys := [], owner := m, projection?, options } ::
    (Compiler.joinedRelations m projection?).filterMap ReachedRelation.source?

namespace Compiler

variable {c : Compiler} {m : Member} {projection? : Option Projection} {options : FindOptions}

/-- Whether a statement reads the sources one after the other, each by a group of expressions. -/
structure ReadsSources (c : Compiler) (sources : List RowSource) (groups : List (List Sql)) (sql : Sql) :
    Prop where
  expressions : List.Forall₂ (fun s group => s.expressions c = .ok group) sources groups
  text : ∃ rest, sql = .word "SELECT " :: Sql.commaList (groups.map Sql.commaList) ++ .word " FROM " :: rest

/-- The text of what is read is that of the items. -/
theorem projectedFields_eq (c : Compiler) (m : Member) (projection? : Option Projection) (options : FindOptions)
    (aliased : Bool) :
    c.projectedFields m projection? (rootQualifier? m projection? options) aliased = do
      let columns ← (rootItems m projection? options).mapM
        (c.projectedItem m (rootQualifier? m projection? options) aliased)
      return Sql.commaList columns := rfl

theorem exists_groups_of_readsJoined {relations : List ReachedRelation} {fields : List Sql}
    (h : List.Forall₂ (c.ReadsJoined none) relations fields) :
    ∃ groups, List.Forall₂ (fun s group => s.expressions c = .ok group)
      (relations.filterMap ReachedRelation.source?) groups ∧ fields = groups.map Sql.commaList := by
  induction h with
  | nil => exact ⟨[], .nil, rfl⟩
  | @cons x text relations fields hfirst _ ih =>
    obtain ⟨groups, hgroups, rfl⟩ := ih
    obtain ⟨target, htarget, htext⟩ := hfirst
    obtain ⟨group, hgroup, htext⟩ := ok_of_bind_eq_ok htext
    cases htext
    have hsource : x.source? = some (x.sourceOf target) :=
      ReachedRelation.source?_eq_some_iff.2 ⟨target, htarget, rfl⟩
    have haliased : (!(x.sourceOf target).keys.isEmpty) = true := by
      simp [ReachedRelation.sourceOf, SelectedRelation.keys]
    have hexpressions : (x.sourceOf target).expressions c = .ok group := by
      rw [RowSource.expressions, haliased]
      exact hgroup
    refine ⟨group :: groups, ?_, rfl⟩
    rw [List.filterMap_cons_some hsource]
    exact .cons hexpressions hgroups

/-- The statement of a query reads its sources. -/
theorem ensures_readsSources (c : Compiler) (m : Member) (query : Query) (options : FindOptions) :
    Ensures (fun sql => ∃ groups, c.ReadsSources (m.sources query.projection? options) groups sql)
      (c.find m query options) := by
  refine .bind_ok fun selection hselection => .bind_any fun criteria => .pure ?_
  obtain ⟨fields, hfields, hselection⟩ := ok_of_bind_eq_ok hselection
  obtain ⟨plan, hplan, hselection⟩ := ok_of_bind_eq_ok hselection
  cases hselection
  rw [projectedFields_eq] at hfields
  obtain ⟨group, hgroup, hfields⟩ := ok_of_bind_eq_ok hfields
  cases hfields
  obtain ⟨groups, hgroups, hjoined⟩ := exists_groups_of_readsJoined (covers_of_plan hplan).fields
  refine ⟨group :: groups, .cons hgroup hgroups, Sql.path m.tableName ++ plan.tables ++ criteria, ?_⟩
  rw [List.map_cons, ← hjoined]
  simp only [List.append_assoc, List.cons_append]

end Compiler

namespace Member

variable {m : Member} {projection? : Option Projection} {options : FindOptions} {s : RowSource}

/-- Rows are those of the entity or of a relation to one row. -/
theorem mem_sources_iff : s ∈ m.sources projection? options ↔
    s = { keys := [], owner := m, projection?, options } ∨
      ∃ x ∈ Compiler.joinedRelations m projection?, ∃ target, x.owner.related x.key = .ok target ∧
        s = x.sourceOf target := by
  rw [sources, List.mem_cons, List.mem_filterMap]
  exact or_congr_right (exists_congr fun _ => and_congr_right fun _ => ReachedRelation.source?_eq_some_iff)

/-- The keys of a source lead to the entity of its rows. -/
theorem follow?_of_mem_sources (h : s ∈ m.sources projection? options) : m.follow? s.keys = some s.owner := by
  rcases mem_sources_iff.1 h with rfl | ⟨x, hx, target, htarget, rfl⟩
  · rfl
  · obtain ⟨hx, hone⟩ := List.mem_filter.1 hx
    obtain ⟨_, howner, hrelation⟩ := ReachedRelation.mem_reached_iff.1 hx
    exact ReachedRelation.follow?_keys howner hrelation hone htarget

/-- What is asked of a source is unambiguous if the whole projection is. -/
theorem isUnambiguous_of_mem_sources (hunambiguous : ∀ projection ∈ projection?, projection.IsUnambiguous)
    (h : s ∈ m.sources projection? options) : ∀ projection ∈ s.projection?, projection.IsUnambiguous := by
  rcases mem_sources_iff.1 h with rfl | ⟨x, hx, target, _, rfl⟩
  · exact hunambiguous
  · obtain ⟨projection, hprojection, hselected⟩ :=
      List.mem_flatMap.1 (ReachedRelation.mem_reached_iff.1 (List.mem_filter.1 hx).1).1
    have hselects := Projection.mem_selected_iff.1 hselected
    exact RelationQuery.isUnambiguous_iff.1
      (hselects.isUnambiguous (hunambiguous projection (Option.mem_toList.1 hprojection)))

/-- The columns of joined rows stand behind their path. -/
theorem qualifier?_of_mem_sources (h : s ∈ m.sources projection? options) (hne : s.keys ≠ []) :
    s.qualifier? = some (".".intercalate s.keys) := by
  rcases mem_sources_iff.1 h with rfl | ⟨x, _, target, _, rfl⟩
  · exact absurd rfl hne
  · rfl

/-- Where no map says two things about a key, different keys lead to all sources. -/
theorem pairwise_keys_sources (m : Member) (options : FindOptions)
    (h : ∀ projection ∈ projection?, projection.IsUnambiguous) :
    (m.sources projection? options).Pairwise fun s t => s.keys ≠ t.keys := by
  have hreached := List.pairwise_map.1 (m.nodup_keys_reached h)
  refine List.pairwise_cons.2 ⟨fun s hs => ?_, (hreached.filter _).filterMap _ fun x y hne s hs t ht => ?_⟩
  · obtain ⟨x, _, hx⟩ := List.mem_filterMap.1 hs
    obtain ⟨_, _, rfl⟩ := ReachedRelation.source?_eq_some_iff.1 hx
    simp [ReachedRelation.sourceOf, SelectedRelation.keys]
  · obtain ⟨_, _, rfl⟩ := ReachedRelation.source?_eq_some_iff.1 hs
    obtain ⟨_, _, rfl⟩ := ReachedRelation.source?_eq_some_iff.1 ht
    exact hne

/-- Where the keys of a selected relation lead along relations to one row, rows are read. -/
theorem mem_sources_of_selected {x : SelectedRelation} {owner : Member}
    (hx : x ∈ projection?.toList.flatMap Projection.selected) (howner : m.follow? x.keys = some owner) :
    { keys := x.keys, owner, projection? := x.query.projection?
      options := { qualifier? := some (".".intercalate x.keys) } } ∈ m.sources projection? options := by
  rw [SelectedRelation.keys, follow?_append] at howner
  obtain ⟨start, hstart, howner⟩ := Option.bind_eq_some_iff.1 howner
  obtain ⟨_, hjoined, howner⟩ := Option.bind_eq_some_iff.1 howner
  cases howner
  obtain ⟨relation, hrelation, hone, htarget⟩ := joined?_eq_some_iff.1 hjoined
  have hreached : { x with owner := start, relation : ReachedRelation } ∈
      Compiler.joinedRelations m projection? :=
    List.mem_filter.2 ⟨ReachedRelation.mem_reached_iff.2 ⟨hx, hstart, hrelation⟩, hone⟩
  exact mem_sources_iff.2 (.inr ⟨_, hreached, owner, htarget, rfl⟩)

end Member

end EntitySql
