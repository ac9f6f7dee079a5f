import EntitySql.Proofs.Joins.Sources
/-!
# Names of what a query reads

A row of the result is read by names: of an expression with an alias by the alias, of a bare column by its own name.
In a registry whose keys are single segments of paths these are the keys of the fields, behind the path of the
relation that is joined, and no two of them are the same (`Compiler.outputNames_find`).
-/

namespace EntitySql

/-! ## Names of expressions -/

namespace Sql

/-- The name by which the value of an expression is read: its alias, or else the name of the column. -/
def outputName? (expression : Sql) : Option String :=
  match expression.getLast? with
  | some (.name name) => some name
  | _ => none

theorem outputName?_append (before : Sql) {name : String} (h : name ≠ "") :
    outputName? (before ++ identifier name) = some name := by
  rw [outputName?, identifier_eq h, List.getLast?_concat]

/-- Segments can be read back out of a path. -/
theorem intercalate_inj {first second : List String} (hfirst : ∀ name ∈ first, IsSegment name)
    (hsecond : ∀ name ∈ second, IsSegment name) (hne : first ≠ []) (hne' : second ≠ [])
    (h : ".".intercalate first = ".".intercalate second) : first = second := by
  rw [← segments_intercalate hfirst hne, h, segments_intercalate hsecond hne']

end Sql

/-- Whether the ids, which are keys of fields as well, are single segments of paths. -/
def Registry.HasSegmentIds (r : Registry) : Prop := ∀ e ∈ r.entities.values, Sql.IsSegment e.id

instance (r : Registry) : Decidable r.HasSegmentIds := inferInstanceAs (Decidable (∀ _ ∈ _, _))

/-- The results of a computation for each item are told by the items. -/
theorem map_eq_of_mapM_eq_ok {ε α β γ : Type} {f : α → Except ε β} {g : β → γ} {name : α → γ} {items : List α}
    {results : List β} (h : items.mapM f = .ok results) (hname : ∀ a ∈ items, ∀ b, f a = .ok b → g b = name a) :
    results.map g = items.map name := by
  induction items generalizing results with
  | nil =>
    cases h
    rfl
  | cons a rest ih =>
    rw [List.mapM_cons] at h
    obtain ⟨b, hb, h⟩ := ok_of_bind_eq_ok h
    obtain ⟨bs, hbs, h⟩ := ok_of_bind_eq_ok h
    cases h
    rw [List.map_cons, List.map_cons, hname a (.head _) b hb, ih hbs fun a ha => hname a (.tail _ ha)]

namespace Compiler

variable {c : Compiler} {m : Member} {qualifier? : Option String} {aliased : Bool} {key : String} {sql : Sql}

/-- The name of a field is its key, behind the qualifier where names are given so. -/
theorem outputName?_projectedItem (hkey : key ≠ "")
    (h : c.projectedItem m qualifier? aliased (.field key) = .ok sql) :
    sql.outputName? = some (if aliased then qualifier?.getD "" ++ "." ++ key else key) := by
  have hname : (if aliased then qualifier?.getD "" ++ "." ++ key else key) ≠ "" := by
    cases aliased
    · exact hkey
    · simp
  have hnamed : ∀ expression : Sql, (expression ++ .word " " ::
      Sql.identifier (if aliased then qualifier?.getD "" ++ "." ++ key else key)).outputName? =
        some (if aliased then qualifier?.getD "" ++ "." ++ key else key) := by
    intro expression
    rw [← List.singleton_append, ← List.append_assoc, Sql.outputName?_append _ hname]
  rw [projectedItem] at h
  dsimp only at h
  split at h
  · obtain ⟨expression, _, h⟩ := ok_of_bind_eq_ok h
    cases h
    exact hnamed expression
  · split at h
    · cases h
      exact hnamed _
    · rename_i hbare
      cases h
      rw [Bool.or_eq_true, not_or] at hbare
      obtain ⟨haliased, hcolumn⟩ := hbare
      have hcolumn : m.columnName key = key := by simpa using hcolumn
      rw [if_neg haliased, column, hcolumn, Sql.outputName?_append _ hkey]

/-! ## Keys of what is read -/

/-- Whether the items are the fields under the keys, each once, of which only the id need not be known. -/
structure IsKeyed (m : Member) (items : List ProjectionItem) (keys : List String) : Prop where
  items : items = keys.map .field
  nodup : keys.Nodup
  known : ∀ key ∈ keys, key ∈ m.entity.fields.keys ∨ key = m.entity.id

theorem isKeyed_fields (m : Member) (kept : String → Bool) :
    IsKeyed m ((m.entity.fields.keys.filter kept).map .field) (m.entity.fields.keys.filter kept) where
  items := rfl
  nodup := m.entity.fields.distinct.filter _
  known _ hkey := .inl (List.mem_filter.1 hkey).1

theorem included_eq (m : Member) (entries : List (String × ProjectionEntry)) :
    (entries.filterMap fun (key, entry) =>
        if m.entity.hasField key && entry.isIncluded then some (ProjectionItem.field key) else none) =
      ((entries.filter fun entry => m.entity.hasField entry.1 && entry.2.isIncluded).map Prod.fst).map .field := by
  rw [← List.filterMap_eq_filter, List.map_filterMap, List.map_filterMap]
  refine List.filterMap_congr fun entry _ => ?_
  simp only [Option.guard]
  split <;> rfl

theorem exists_isKeyed_projectedItems (m : Member) {projection? : Option Projection}
    (hmap : ∀ list, projection? ≠ some (.items list))
    (hunambiguous : ∀ projection ∈ projection?, projection.IsUnambiguous) :
    ∃ keys, IsKeyed m (projectedItems m projection?) keys := by
  rcases projection? with _ | (list | entries)
  · refine ⟨m.entity.fields.keys, rfl, m.entity.fields.distinct, fun _ => .inl⟩
  · exact absurd rfl (hmap list)
  · rw [projectedItems]
    dsimp only
    split
    · exact ⟨_, isKeyed_fields m _⟩
    · rw [included_eq]
      refine ⟨_, rfl, (List.filter_sublist.map _).nodup (hunambiguous _ rfl).1, fun key hkey => .inl ?_⟩
      obtain ⟨entry, hentry, rfl⟩ := List.mem_map.1 hkey
      exact Assoc.contains_iff.1 (Bool.and_eq_true_iff.1 (List.mem_filter.1 hentry).2).1

theorem exists_isKeyed_rootItems (m : Member) {projection? : Option Projection}
    (hmap : ∀ list, projection? ≠ some (.items list))
    (hunambiguous : ∀ projection ∈ projection?, projection.IsUnambiguous) (options : FindOptions) :
    ∃ keys, IsKeyed m (rootItems m projection? options) keys := by
  obtain ⟨keys, hitems, hnodup, hknown⟩ := exists_isKeyed_projectedItems m hmap hunambiguous
  rw [rootItems]
  split
  · rw [withId, hitems]
    split
    · exact ⟨keys, rfl, hnodup, hknown⟩
    · rename_i hid
      refine ⟨m.entity.id :: keys, rfl, List.nodup_cons.2 ⟨fun hmem => hid ?_, hnodup⟩, ?_⟩
      · exact List.contains_iff_mem.2 (List.mem_map_of_mem hmem)
      · exact List.forall_mem_cons.2 ⟨.inr rfl, hknown⟩
  · exact ⟨keys, hitems, hnodup, hknown⟩

end Compiler

namespace RowSource

open Compiler

/-- The keys of the fields that are read. -/
def fieldKeys (s : RowSource) : List String :=
  s.items.filterMap fun
    | .field key => some key
    | .raw _ => none

/-- The names of the fields that are read: their keys, behind the path of a joined relation. -/
def outputNames (s : RowSource) : List String := s.fieldKeys.map fun key => ".".intercalate (s.keys ++ [key])

theorem fieldKeys_eq {s : RowSource} {keys : List String} (h : s.items = keys.map .field) : s.fieldKeys = keys := by
  rw [fieldKeys, h, List.filterMap_map]
  exact List.filterMap_some

/-- The expressions of keyed items have the names of the source. -/
theorem map_outputName?_eq {c : Compiler} {s : RowSource} {keys : List String} {group : List Sql}
    (hkeyed : IsKeyed s.owner s.items keys) (hne : ∀ key ∈ keys, key ≠ "")
    (hqualifier : s.keys ≠ [] → s.qualifier? = some (".".intercalate s.keys)) (h : s.expressions c = .ok group) :
    group.map Sql.outputName? = s.outputNames.map some := by
  rw [outputNames, fieldKeys_eq hkeyed.items, List.map_map]
  rw [expressions, hkeyed.items, List.mapM_map] at h
  refine map_eq_of_mapM_eq_ok h fun key hkey sql hsql => ?_
  rw [outputName?_projectedItem (hne key hkey) hsql, Function.comp_apply]
  cases hkeys : s.keys with
  | nil => simp
  | cons first rest =>
    have hjoined : s.keys ≠ [] := by simp [hkeys]
    rw [← hkeys, String.intercalate_append_of_ne_nil hjoined (List.cons_ne_nil _ _), String.intercalate_singleton,
      hqualifier hjoined, hkeys]
    rfl

end RowSource

/-! ## Names of a statement -/

/-- Whether relations are asked for by maps, or without a projection. -/
def Projection.AsksByMaps (projection : Projection) : Prop :=
  ∀ x ∈ projection.selected, ∀ list, x.query.projection? ≠ some (.items list)

theorem map_flatten_of_forall₂ {α β γ : Type} {R : α → List β → Prop} {as : List α} {groups : List (List β)}
    {g : β → γ} {name : α → List γ} (h : List.Forall₂ R as groups)
    (hname : ∀ a ∈ as, ∀ group, R a group → group.map g = name a) : groups.flatten.map g = as.flatMap name := by
  induction h with
  | nil => rfl
  | cons hfirst _ ih =>
    rw [List.flatten_cons, List.map_append, List.flatMap_cons, hname _ (.head _) _ hfirst,
      ih fun a ha => hname a (.tail _ ha)]

namespace Compiler

variable {c : Compiler} {m : Member} {query : Query} {options : FindOptions}

/-- Sources that are asked for by maps are read by keys. -/
theorem isKeyed_of_mem_sources {entries : List (String × ProjectionEntry)}
    (hunambiguous : (Projection.map entries).IsUnambiguous) (hmaps : (Projection.map entries).AsksByMaps)
    {s : RowSource} (hs : s ∈ m.sources (some (.map entries)) options) :
    IsKeyed s.owner s.items s.fieldKeys := by
  have hbelow := Member.isUnambiguous_of_mem_sources (by rintro _ ⟨⟩; exact hunambiguous) hs
  have hkeyed : ∃ keys, IsKeyed s.owner s.items keys := by
    rcases Member.mem_sources_iff.1 hs with rfl | ⟨x, hx, target, _, rfl⟩
    · exact exists_isKeyed_rootItems m (by rintro _ ⟨⟩) hbelow options
    · have hselected := (ReachedRelation.mem_reached_iff.1 (List.mem_filter.1 hx).1).1
      rw [Option.toList_some, List.flatMap_singleton] at hselected
      exact exists_isKeyed_rootItems target (hmaps _ hselected) hbelow _
  obtain ⟨keys, hkeyed⟩ := hkeyed
  rwa [RowSource.fieldKeys_eq hkeyed.items]

section Segments

variable {projection? : Option Projection} (hsegments : m.registry.HasSegmentKeys)
  (hids : m.registry.HasSegmentIds) (hm : m ∈ m.registry.members)
  (hkeyed : ∀ s ∈ m.sources projection? options, IsKeyed s.owner s.items s.fieldKeys)

include hsegments hids hm hkeyed

/-- The names of fields are paths of segments. -/
theorem isSegment_of_mem_sources {s : RowSource} (hs : s ∈ m.sources projection? options) {key : String}
    (hkey : key ∈ s.fieldKeys) : ∀ name ∈ s.keys ++ [key], Sql.IsSegment name := by
  obtain ⟨_, hmem, hkeys⟩ := m.follow?_spec hsegments hm (Member.follow?_of_mem_sources hs)
  refine List.forall_mem_append.2 ⟨hkeys, List.forall_mem_singleton.2 ?_⟩
  rcases (hkeyed s hs).known key hkey with hfield | rfl
  · exact hsegments.field hmem hfield
  · obtain ⟨e, he, howner⟩ := List.mem_map.1 hmem
    rw [← howner]
    exact hids e he

/-- The name of a field tells its source and its key. -/
theorem eq_of_outputName_eq {s t : RowSource} (hs : s ∈ m.sources projection? options)
    (ht : t ∈ m.sources projection? options) {key other : String} (hkey : key ∈ s.fieldKeys)
    (hother : other ∈ t.fieldKeys)
    (h : ".".intercalate (s.keys ++ [key]) = ".".intercalate (t.keys ++ [other])) :
    s.keys = t.keys ∧ key = other := by
  have hfirst := isSegment_of_mem_sources hsegments hids hm hkeyed hs hkey
  have hsecond := isSegment_of_mem_sources hsegments hids hm hkeyed ht hother
  have hpaths := Sql.intercalate_inj hfirst hsecond (by simp) (by simp) h
  obtain ⟨hkeys, hlast⟩ := List.append_inj' hpaths rfl
  exact ⟨hkeys, List.singleton_inj.1 hlast⟩

theorem nodup_outputNames (hunambiguous : ∀ projection ∈ projection?, projection.IsUnambiguous) :
    ((m.sources projection? options).flatMap RowSource.outputNames).Nodup := by
  refine List.nodup_flatMap.2 ⟨fun s hs => ?_, ?_⟩
  · exact (hkeyed s hs).nodup.map_on fun key hkey other hother h =>
      (eq_of_outputName_eq hsegments hids hm hkeyed hs hs hkey hother h).2
  · refine (m.pairwise_keys_sources options hunambiguous).imp_of_mem fun {s t} hs ht hne => ?_
    rintro name hname hname'
    obtain ⟨key, hkey, rfl⟩ := List.mem_map.1 hname
    obtain ⟨other, hother, h⟩ := List.mem_map.1 hname'
    exact hne (eq_of_outputName_eq hsegments hids hm hkeyed hs ht hkey hother h.symm).1

end Segments

/-- The statement of a map reads its sources by the keys of fields. The names of the expressions are these keys behind
the paths of the joined relations, and no two of them are the same. -/
theorem outputNames_find {entries : List (String × ProjectionEntry)}
    (hprojection : query.projection? = some (.map entries)) (hunambiguous : (Projection.map entries).IsUnambiguous)
    (hmaps : (Projection.map entries).AsksByMaps) (hsegments : m.registry.HasSegmentKeys)
    (hids : m.registry.HasSegmentIds) (hm : m ∈ m.registry.members) {sql : Sql}
    (hfind : c.find m query options = .ok sql) :
    let sources := m.sources query.projection? options
    ∃ groups, c.ReadsSources sources groups sql ∧ (∀ s ∈ sources, IsKeyed s.owner s.items s.fieldKeys) ∧
      groups.flatten.map Sql.outputName? = (sources.flatMap RowSource.outputNames).map some ∧
      (sources.flatMap RowSource.outputNames).Nodup := by
  intro sources
  obtain ⟨groups, hreads⟩ := ensures_readsSources c m query options sql hfind
  have hkeyed : ∀ s ∈ sources, IsKeyed s.owner s.items s.fieldKeys := by
    intro s hs
    simp only [sources, hprojection] at hs
    exact isKeyed_of_mem_sources hunambiguous hmaps hs
  have hnames : groups.flatten.map Sql.outputName? = sources.flatMap fun s => s.outputNames.map some := by
    refine map_flatten_of_forall₂ hreads.expressions fun s hs group hgroup => ?_
    have hne : ∀ key ∈ s.fieldKeys, key ≠ "" := fun key hkey =>
      (isSegment_of_mem_sources hsegments hids hm hkeyed hs hkey key (by simp)).1
    exact RowSource.map_outputName?_eq (hkeyed s hs) hne (Member.qualifier?_of_mem_sources hs) hgroup
  refine ⟨groups, hreads, hkeyed, by rw [hnames, List.map_flatMap], nodup_outputNames hsegments hids hm hkeyed ?_⟩
  rw [hprojection]
  rintro _ ⟨⟩
  exact hunambiguous

/-- Items with the names of their units and of the categories of these, in columns of other names. -/
theorem outputNames_find_items :
    let id : Field := { type := .integer }
    let name : Field := { type := .string, column? := some "label" }
    let item : Entity :=
      { name := "item", fields := Assoc.ofPairs [("id", id), ("displayName", { type := .string }), ("unitId", id)]
        relations := Assoc.ofPairs
          [("unit", { entity := "unit", cardinality := .manyToOne, keyPairs := [⟨"unitId", "id"⟩] })] }
    let unit : Entity :=
      { name := "unit", fields := Assoc.ofPairs [("id", id), ("name", name), ("categoryId", id)]
        relations := Assoc.ofPairs
          [("category", { entity := "category", cardinality := .manyToOne, keyPairs := [⟨"categoryId", "id"⟩] })] }
    let category : Entity := { name := "category", fields := Assoc.ofPairs [("id", id), ("name", name)] }
    let m : Member := ⟨{ Registry.ofList [item, unit, category] with naming := .snakeCase }, item⟩
    let c : Compiler := { dialect := .mysql, expander := fun _ _ => .ok "" }
    let units : RelationQuery := { projection? := some (.map [("name", .flag true), ("category", .flag true)]) }
    let projection : Projection := .map [("displayName", .flag true), ("unit", .relation units)]
    let query : Query := { projection? := some projection }
    let names : List String :=
      ["id", "displayName", "unit.id", "unit.name", "unit.category.id", "unit.category.name"]
    let text :=
      "SELECT `item`.`id`, `item`.`display_name` `displayName`, `unit`.`id` `unit.id`, " ++
        "`unit`.`label` `unit.name`, `unit.category`.`id` `unit.category.id`, " ++
        "`unit.category`.`label` `unit.category.name` FROM `item` " ++
        "LEFT JOIN `unit` `unit` ON `unit`.`id` = `item`.`unit_id` " ++
        "LEFT JOIN `category` `unit.category` ON `unit.category`.`id` = `unit`.`category_id`"
    ∃ sql groups, c.find m query = .ok sql ∧ c.dialect.render sql = text ∧ projection.IsUnambiguous ∧
      projection.AsksByMaps ∧ m.registry.HasSegmentKeys ∧
      m.registry.HasSegmentIds ∧ m ∈ m.registry.members ∧
      c.ReadsSources (m.sources query.projection? {}) groups sql ∧
      groups.flatten.map Sql.outputName? = names.map some ∧ names.Nodup := by
  intro id name item unit category m c units projection query names text
  have hfind : ((c.find m query).toOption.map c.dialect.render) = some text := by decide +kernel
  obtain ⟨sql, hfind, htext⟩ := Option.map_eq_some_iff.1 hfind
  have hfind := toOption_eq_some_iff.1 hfind
  have hunambiguous : projection.IsUnambiguous := by
    simp [projection, units, Projection.IsUnambiguous, ProjectionEntry.AreUnambiguous,
      ProjectionEntry.IsUnambiguous, RelationQuery.IsUnambiguous]
  have hmaps : projection.AsksByMaps := by
    intro x hx list hlist
    have hselected : projection.selected.map (·.query.projection?) = [none, units.projection?, none, none] := rfl
    have hmem := List.mem_map_of_mem (f := (·.query.projection?)) hx
    rw [hselected, hlist] at hmem
    simp [units] at hmem
  have hsegments : m.registry.HasSegmentKeys := by decide +kernel
  have hids : m.registry.HasSegmentIds := by decide +kernel
  have hm : m ∈ m.registry.members := List.mem_of_getElem? (i := 0) rfl
  have hnames : (m.sources query.projection? {}).flatMap RowSource.outputNames = names := by decide +kernel
  obtain ⟨groups, hreads, _, hgroups, hnodup⟩ :=
    outputNames_find rfl hunambiguous hmaps hsegments hids hm hfind
  rw [hnames] at hgroups hnodup
  exact ⟨sql, groups, hfind, htext, hunambiguous, hmaps, hsegments, hids, hm, hreads, hgroups, hnodup⟩

end Compiler

end EntitySql
