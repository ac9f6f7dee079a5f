import EntitySql.Compile.Projection
import Mathlib.Data.List.Nodup
/-!
# Selected relations

A projection is a tree of keys, and `Projection.selected` lists the relations that it asks for, depth first,
without a look at any entity. Which of them exist is another matter: `Member.reached` keeps those to which
relations to one row lead from the root. Entities may refer to one another in cycles, for only the keys of
the projection are followed.
-/

namespace EntitySql

/-! ## The relations that a projection asks for -/

/-- A relation that a projection asks for. -/
structure SelectedRelation where
  /-- The keys of the relations that lead to it, outermost first. -/
  parents : List String
  key : String
  /-- What is asked of the related rows. -/
  query : RelationQuery

namespace SelectedRelation

/-- All keys from the root on. -/
def keys (x : SelectedRelation) : List String := x.parents ++ [x.key]

/-- The relation seen from one step above. -/
def below (key : String) (x : SelectedRelation) : SelectedRelation := { x with parents := key :: x.parents }

end SelectedRelation

mutual

/-- The relations that a projection asks for, depth first in the order of its entries. -/
def Projection.selected : Projection → List SelectedRelation
  | .items _ => []
  | .map entries => ProjectionEntry.selectedOfEntries entries

/-- The relations that entries ask for. -/
def ProjectionEntry.selectedOfEntries : List (String × ProjectionEntry) → List SelectedRelation
  | [] => []
  | (key, entry) :: rest => entry.selected key ++ ProjectionEntry.selectedOfEntries rest

/-- The relation that an entry asks for, and those below it. -/
def ProjectionEntry.selected (key : String) : ProjectionEntry → List SelectedRelation
  | .flag false => []
  | .flag true => [{ parents := [], key, query := {} }]
  | .relation query => { parents := [], key, query } :: query.selected.map (·.below key)

/-- The relations that the query of a relation asks for. -/
def RelationQuery.selected : RelationQuery → List SelectedRelation
  | ⟨some projection, _, _, _, _, _⟩ => projection.selected
  | ⟨none, _, _, _, _, _⟩ => []

end

mutual

/-- Whether no map of the projection says two things about a key. -/
def Projection.IsUnambiguous : Projection → Prop
  | .items _ => True
  | .map entries => (entries.map Prod.fst).Nodup ∧ ProjectionEntry.AreUnambiguous entries

/-- Whether all entries are unambiguous. -/
def ProjectionEntry.AreUnambiguous : List (String × ProjectionEntry) → Prop
  | [] => True
  | (_, entry) :: rest => entry.IsUnambiguous ∧ ProjectionEntry.AreUnambiguous rest

/-- Whether no map below the entry says two things about a key. -/
def ProjectionEntry.IsUnambiguous : ProjectionEntry → Prop
  | .flag _ => True
  | .relation query => query.IsUnambiguous

/-- Whether no map of the query says two things about a key. -/
def RelationQuery.IsUnambiguous : RelationQuery → Prop
  | ⟨some projection, _, _, _, _, _⟩ => projection.IsUnambiguous
  | ⟨none, _, _, _, _, _⟩ => True

end

/-! ## Relations that exist -/

/-- A selected relation with the entity that declares it. -/
structure ReachedRelation extends SelectedRelation where
  owner : Member
  relation : Relation

namespace ReachedRelation

/-- Whether the relation has one row at most. -/
def isToOne (x : ReachedRelation) : Bool := x.relation.cardinality.isToOne

/-- The relation seen from one step above. -/
def below (key : String) (x : ReachedRelation) : ReachedRelation :=
  { x with toSelectedRelation := x.toSelectedRelation.below key }

end ReachedRelation

namespace Member

/-- The entity at the other end of a relation that has one row at most. -/
def joined? (m : Member) (key : String) : Option Member :=
  (m.entity.relations.get? key).bind fun relation =>
    if relation.cardinality.isToOne then (m.related key).toOption else none

/-- The entity to which such relations lead. -/
def follow? (m : Member) : List String → Option Member
  | [] => some m
  | key :: keys => (m.joined? key).bind (·.follow? keys)

/-- A selected relation, if it exists where the relations above it lead. -/
def reach? (m : Member) (x : SelectedRelation) : Option ReachedRelation :=
  (m.follow? x.parents).bind fun owner => (owner.entity.relations.get? x.key).map fun relation =>
    { x with owner, relation }

/-- The selected relations that exist where the relations above them lead. -/
def reached (m : Member) (selected : List SelectedRelation) : List ReachedRelation :=
  selected.filterMap m.reach?

end Member

/-! ## Keys -/

/-- Every relation that an entry asks for is reached by its key. -/
theorem ProjectionEntry.head?_keys_of_mem_selected {entry : ProjectionEntry} {key : String}
    {x : SelectedRelation} (h : x ∈ entry.selected key) : x.keys.head? = some key := by
  match entry with
  | .flag false => cases h
  | .flag true =>
    obtain rfl := List.mem_singleton.1 h
    rfl
  | .relation query =>
    rcases List.mem_cons.1 h with rfl | h
    · rfl
    · obtain ⟨y, _, rfl⟩ := List.mem_map.1 h
      rfl

theorem ProjectionEntry.exists_of_mem_selectedOfEntries {entries : List (String × ProjectionEntry)}
    {x : SelectedRelation} (h : x ∈ selectedOfEntries entries) :
    ∃ entry ∈ entries, x ∈ entry.2.selected entry.1 := by
  induction entries with
  | nil => cases h
  | cons first rest ih =>
    rcases List.mem_append.1 h with h | h
    · exact ⟨first, .head _, h⟩
    · obtain ⟨entry, hentry, h⟩ := ih h
      exact ⟨entry, .tail _ hentry, h⟩

mutual

/-- Where no map says two things about a key, no relation is selected twice. -/
theorem Projection.nodup_keys_selected : ∀ projection : Projection, projection.IsUnambiguous →
    (projection.selected.map (·.keys)).Nodup
  | .items _, _ => .nil
  | .map entries, h => ProjectionEntry.nodup_keys_selectedOfEntries entries h.1 h.2

theorem ProjectionEntry.nodup_keys_selectedOfEntries : ∀ entries : List (String × ProjectionEntry),
    (entries.map Prod.fst).Nodup → ProjectionEntry.AreUnambiguous entries →
    ((ProjectionEntry.selectedOfEntries entries).map (·.keys)).Nodup
  | [], _, _ => .nil
  | (key, entry) :: rest, hnodup, h => by
    obtain ⟨hfresh, hnodup⟩ := List.nodup_cons.1 hnodup
    rw [ProjectionEntry.selectedOfEntries, List.map_append, List.nodup_append]
    refine ⟨ProjectionEntry.nodup_keys_selected key entry h.1,
      ProjectionEntry.nodup_keys_selectedOfEntries rest hnodup h.2, ?_⟩
    -- The keys of the two lists start with different keys of the map.
    rintro _ hfirst _ hrest rfl
    obtain ⟨x, hx, hkeys⟩ := List.mem_map.1 hfirst
    obtain ⟨y, hy, rfl⟩ := List.mem_map.1 hrest
    obtain ⟨other, hother, hy⟩ := ProjectionEntry.exists_of_mem_selectedOfEntries hy
    have hhead := ProjectionEntry.head?_keys_of_mem_selected hx
    rw [hkeys, ProjectionEntry.head?_keys_of_mem_selected hy] at hhead
    exact hfresh (List.mem_map.2 ⟨other, hother, Option.some.inj hhead⟩)

theorem ProjectionEntry.nodup_keys_selected (key : String) : ∀ entry : ProjectionEntry,
    entry.IsUnambiguous → ((entry.selected key).map (·.keys)).Nodup
  | .flag false, _ => .nil
  | .flag true, _ => List.nodup_singleton _
  | .relation query, h => by
    rw [ProjectionEntry.selected, List.map_cons, List.map_map, List.nodup_cons]
    refine ⟨fun hmem => ?_, ?_⟩
    · obtain ⟨x, _, hkeys⟩ := List.mem_map.1 hmem
      have hnil : x.keys = [] := (List.cons.inj hkeys).2
      exact absurd hnil (by simp [SelectedRelation.keys])
    · have hbelow := (query.nodup_keys_selected h).map (List.cons_injective (a := key))
      rwa [List.map_map] at hbelow

theorem RelationQuery.nodup_keys_selected : ∀ query : RelationQuery, query.IsUnambiguous →
    (query.selected.map (·.keys)).Nodup
  | ⟨some projection, _, _, _, _, _⟩, h => projection.nodup_keys_selected h
  | ⟨none, _, _, _, _, _⟩, _ => .nil

end

/-! ## Steps along relations -/

namespace Member

variable {m target : Member} {key : String} {relation : Relation}

theorem joined?_eq_some (hrelation : m.entity.relations.get? key = some relation)
    (hone : relation.cardinality.isToOne = true) (htarget : m.related key = .ok target) :
    m.joined? key = some target := by
  simp [joined?, hrelation, hone, htarget, Except.toOption]

theorem joined?_eq_none (h : ∀ relation, m.entity.relations.get? key = some relation →
    relation.cardinality.isToOne = false) : m.joined? key = none := by
  refine Option.bind_eq_none_iff.2 fun relation hrelation => ?_
  rw [h relation hrelation]
  rfl

theorem reached_append (m : Member) (first second : List SelectedRelation) :
    m.reached (first ++ second) = m.reached first ++ m.reached second := List.filterMap_append

theorem map_reached (m : Member) (selected : List SelectedRelation) :
    (m.reached selected).map (·.toSelectedRelation) = selected.filter fun x => (m.reach? x).isSome := by
  rw [reached, List.map_filterMap, ← List.filterMap_eq_filter]
  refine List.filterMap_congr fun x _ => ?_
  cases hreach : m.reach? x with
  | none => simp [Option.guard, hreach]
  | some reached =>
    obtain ⟨owner, _, hreached⟩ := Option.bind_eq_some_iff.1 hreach
    obtain ⟨relation, _, rfl⟩ := Option.map_eq_some_iff.1 hreached
    simp [Option.guard, hreach]

/-- Where no map says two things about a key, no relation is reached twice. -/
theorem nodup_keys_reached (m : Member) {projection? : Option Projection}
    (h : ∀ projection ∈ projection?, projection.IsUnambiguous) :
    ((m.reached (projection?.toList.flatMap Projection.selected)).map fun x =>
      x.toSelectedRelation.keys).Nodup := by
  have hkeys := congrArg (List.map SelectedRelation.keys)
    (m.map_reached (projection?.toList.flatMap Projection.selected))
  rw [List.map_map] at hkeys
  refine hkeys ▸ (List.filter_sublist.map _).nodup ?_
  cases projection? with
  | none => exact .nil
  | some projection =>
    rw [Option.toList_some, List.flatMap_singleton]
    exact projection.nodup_keys_selected (h projection rfl)

/-- What is reached through a relation is what is reached from its other end. -/
theorem reached_map_below (h : m.joined? key = some target) (selected : List SelectedRelation) :
    m.reached (selected.map (·.below key)) = (target.reached selected).map (·.below key) := by
  rw [reached, reached, List.filterMap_map, List.map_filterMap]
  refine List.filterMap_congr fun x _ => ?_
  simp only [Function.comp_def, reach?, SelectedRelation.below, follow?, h, Option.bind_some,
    Option.map_bind, Option.map_map]
  rfl

/-- Nothing is reached through a relation with many rows, or through none. -/
theorem reached_map_below_eq_nil (h : m.joined? key = none) (selected : List SelectedRelation) :
    m.reached (selected.map (·.below key)) = [] := by
  rw [reached, List.filterMap_map]
  refine List.filterMap_eq_nil_iff.2 fun x _ => ?_
  simp only [Function.comp, reach?, SelectedRelation.below, follow?, h, Option.bind_none]

/-- A selected relation of an entity is reached in front of those below it. -/
theorem reached_selected_relation (hrelation : m.entity.relations.get? key = some relation)
    (query : RelationQuery) :
    m.reached (ProjectionEntry.selected key (.relation query)) =
      { parents := [], key, query, owner := m, relation } ::
        m.reached (query.selected.map (·.below key)) := by
  rw [ProjectionEntry.selected, reached, List.filterMap_cons_some, reached]
  simp [reach?, follow?, hrelation]

/-- Nothing is reached under a key that is no relation. -/
theorem reached_selected_of_none (hnone : m.entity.relations.get? key = none) (query : RelationQuery) :
    m.reached (ProjectionEntry.selected key (.relation query)) = [] := by
  have hjoined : m.joined? key = none := joined?_eq_none (by simp [hnone])
  rw [ProjectionEntry.selected, reached, List.filterMap_cons_none, ← reached]
  · exact reached_map_below_eq_nil hjoined _
  · simp [reach?, follow?, hnone]

end Member

end EntitySql
