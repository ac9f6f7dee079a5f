import EntitySql.Proofs.Assoc
import EntitySql.Proofs.Joins.Plan
/-!
# Fields at the end of a path

A key that is a single segment can be read back out of a dotted path. In a registry whose keys are single
segments, the path of a joined relation followed by a field key therefore leads to one field only, and
`Compiler.columnReference_path` says that it is the column behind the alias of the join.
-/

namespace EntitySql

/-! ## Segments -/

namespace Sql

/-- Whether the name is a single segment of a path. -/
def IsSegment (name : String) : Prop := name ≠ "" ∧ '.' ∉ name.toList

instance (name : String) : Decidable (IsSegment name) := inferInstanceAs (Decidable (_ ∧ _))

theorem identifier_eq {name : String} (h : name ≠ "") : identifier name = [.name name] :=
  if_neg (by simpa using h)

theorem qualifier_eq {table : String} (h : table ≠ "") : qualifier table = [.name table, .word "."] :=
  if_neg (by simpa using h)

/-- A path of segments falls apart into them. -/
theorem segments_intercalate {names : List String} (hnames : ∀ name ∈ names, IsSegment name)
    (hne : names ≠ []) : segments (".".intercalate names) = names := by
  have hdots : ∀ part ∈ names.map String.toList, '.' ∉ part := by
    intro part hpart
    obtain ⟨name, hname, rfl⟩ := List.mem_map.1 hpart
    exact (hnames name hname).2
  rw [segments, String.toList_intercalate, show ".".toList = ['.'] from rfl,
    List.splitOn_intercalate '.' hdots (by simpa using hne), List.map_map]
  exact (List.map_congr_left fun name _ => String.ofList_toList).trans (List.map_id names)

theorem intercalate_ne_empty {names : List String} (hnames : ∀ name ∈ names, IsSegment name)
    (hne : names ≠ []) : ".".intercalate names ≠ "" := by
  intro hempty
  have hnames' := segments_intercalate hnames hne
  have hsegments : segments "" = [""] := rfl
  rw [hempty, hsegments] at hnames'
  exact (hnames "" (hnames' ▸ .head _)).1 rfl

end Sql

/-- Whether all keys of fields and relations are single segments of paths. -/
def Registry.HasSegmentKeys (r : Registry) : Prop :=
  ∀ e ∈ r.entities.values, ∀ key ∈ e.fields.keys ++ e.relations.keys, Sql.IsSegment key

instance (r : Registry) : Decidable r.HasSegmentKeys := inferInstanceAs (Decidable (∀ _ ∈ _, _))

namespace Registry

variable {r : Registry} {m : Member}

theorem HasSegmentKeys.field (h : r.HasSegmentKeys) (hm : m ∈ r.members) {key : String}
    (hkey : key ∈ m.entity.fields.keys) : Sql.IsSegment key := by
  obtain ⟨e, he, rfl⟩ := List.mem_map.1 hm
  exact h e he key (List.mem_append_left _ hkey)

theorem HasSegmentKeys.relation (h : r.HasSegmentKeys) (hm : m ∈ r.members) {key : String}
    (hkey : key ∈ m.entity.relations.keys) : Sql.IsSegment key := by
  obtain ⟨e, he, rfl⟩ := List.mem_map.1 hm
  exact h e he key (List.mem_append_right _ hkey)

end Registry

/-! ## Ways along relations -/

namespace Member

variable {m target : Member} {key : String} {keys : List String}

/-- A relation leads to an entity of the same registry. -/
theorem mem_members_of_related (h : m.related key = .ok target) :
    target.registry = m.registry ∧ target ∈ m.registry.members := by
  obtain ⟨relation, _, h⟩ := ok_of_bind_eq_ok h
  rw [Registry.member] at h
  split at h
  · rename_i entity hentity
    cases h
    exact ⟨rfl, List.mem_map.2 ⟨entity, Assoc.mem_values_of_get? hentity, rfl⟩⟩
  · cases h

theorem joined?_eq_some_iff : m.joined? key = some target ↔
    ∃ relation, m.entity.relations.get? key = some relation ∧ relation.cardinality.isToOne = true ∧
      m.related key = .ok target := by
  refine ⟨fun h => ?_, fun ⟨_, hrelation, hone, htarget⟩ => joined?_eq_some hrelation hone htarget⟩
  obtain ⟨relation, hrelation, h⟩ := Option.bind_eq_some_iff.1 h
  split at h
  · rename_i hone
    exact ⟨relation, hrelation, hone, toOption_eq_some_iff.1 h⟩
  · cases h

theorem follow?_append (m : Member) (first second : List String) :
    m.follow? (first ++ second) = (m.follow? first).bind (·.follow? second) := by
  induction first generalizing m with
  | nil => rfl
  | cons key rest ih =>
    rw [List.cons_append, follow?, follow?, Option.bind_assoc]
    exact Option.bind_congr fun next _ => ih next

/-- Where relations to one row lead, the path of their keys leads. -/
theorem memberAt?_of_follow? (h : m.follow? keys = some target) : Compiler.memberAt? m keys = some target := by
  induction keys generalizing m with
  | nil => exact h
  | cons key rest ih =>
    obtain ⟨next, hnext, h⟩ := Option.bind_eq_some_iff.1 h
    obtain ⟨_, _, _, hrelated⟩ := joined?_eq_some_iff.1 hnext
    have hstep : (m.related key).toOption = some next := toOption_eq_some_iff.2 hrelated
    have hrest := ih h
    rw [Compiler.memberAt?, List.foldlM_cons, hstep]
    exact hrest

/-- On the way along relations one stays in the registry. -/
theorem mem_members_of_follow? (hm : m ∈ m.registry.members) (h : m.follow? keys = some target) :
    target.registry = m.registry ∧ target ∈ m.registry.members := by
  induction keys generalizing m with
  | nil =>
    cases h
    exact ⟨rfl, hm⟩
  | cons key rest ih =>
    obtain ⟨next, hnext, h⟩ := Option.bind_eq_some_iff.1 h
    obtain ⟨_, _, _, hrelated⟩ := joined?_eq_some_iff.1 hnext
    obtain ⟨hregistry, hmem⟩ := mem_members_of_related hrelated
    rw [← hregistry] at hmem ⊢
    exact ih hmem h

/-- On the way along relations one stays in the registry and passes segments only. -/
theorem follow?_spec (hsegments : m.registry.HasSegmentKeys) (hm : m ∈ m.registry.members)
    (h : m.follow? keys = some target) :
    target.registry = m.registry ∧ target ∈ m.registry.members ∧ ∀ key ∈ keys, Sql.IsSegment key := by
  obtain ⟨hregistry, hmem⟩ := mem_members_of_follow? hm h
  refine ⟨hregistry, hmem, ?_⟩
  clear hregistry hmem
  induction keys generalizing m with
  | nil => exact nofun
  | cons key rest ih =>
    obtain ⟨next, hnext, h⟩ := Option.bind_eq_some_iff.1 h
    obtain ⟨relation, hrelation, _, hrelated⟩ := joined?_eq_some_iff.1 hnext
    obtain ⟨hregistry, hmem⟩ := mem_members_of_related hrelated
    have hkey : key ∈ m.entity.relations.keys := Assoc.mem_keys_iff.2 ⟨relation, hrelation⟩
    rw [← hregistry] at hmem
    exact List.forall_mem_cons.2 ⟨hsegments.relation hm hkey, ih (hregistry ▸ hsegments) hmem h⟩

end Member

namespace ReachedRelation

variable {m target : Member} {x : ReachedRelation}

theorem mem_reached_iff {selected : List SelectedRelation} :
    x ∈ m.reached selected ↔ x.toSelectedRelation ∈ selected ∧ m.follow? x.parents = some x.owner ∧
      x.owner.entity.relations.get? x.key = some x.relation := by
  rw [Member.reached, List.mem_filterMap]
  constructor
  · rintro ⟨y, hy, hreach⟩
    obtain ⟨owner, howner, hreach⟩ := Option.bind_eq_some_iff.1 hreach
    obtain ⟨relation, hrelation, rfl⟩ := Option.map_eq_some_iff.1 hreach
    exact ⟨hy, howner, hrelation⟩
  · rintro ⟨hmem, howner, hrelation⟩
    refine ⟨x.toSelectedRelation, hmem, ?_⟩
    rw [Member.reach?, howner, Option.bind_some, hrelation]
    rfl

/-- The keys of a relation with one row lead to its other end. -/
theorem follow?_keys (howner : m.follow? x.parents = some x.owner)
    (hrelation : x.owner.entity.relations.get? x.key = some x.relation) (hone : x.isToOne = true)
    (htarget : x.owner.related x.key = .ok target) : m.follow? x.keys = some target := by
  have hjoined := Member.joined?_eq_some hrelation hone htarget
  rw [SelectedRelation.keys, Member.follow?_append, howner, Option.bind_some, Member.follow?, hjoined]
  rfl

end ReachedRelation

/-! ## References -/

namespace Compiler

variable {c : Compiler} {m target : Member}

theorem exists_field {key : String} (h : m.entity.isStored key = true) :
    ∃ field, m.entity.fields.get? key = some field ∧ field.computed? = none := by
  cases hfield : m.entity.fields.get? key with
  | none => simp [Entity.isStored, hfield] at h
  | some field => exact ⟨field, rfl, by simpa [Entity.isStored, Field.isStored, hfield] using h⟩

theorem computed?_eq_none {key : String} (h : m.entity.isStored key = true) : m.computed? key = none := by
  obtain ⟨field, hfield, hplain⟩ := exists_field h
  rw [Member.computed?, hfield]
  exact hplain

/-- A reference to a stored field is its column. -/
theorem columnReference_eq_column {key : String} (h : m.entity.isStored key = true) (qualifier? : Option String) :
    c.columnReference m key qualifier? = .ok (column m key qualifier?) := by
  obtain ⟨field, hfield, hplain⟩ := exists_field h
  rw [columnReference, hfield]
  dsimp only
  rw [hplain]
  rfl

/-- A column behind the alias of a join. -/
def aliasedColumn (path column : String) : Sql := .name path :: .word "." :: Sql.identifier column

/-- The last dot stands in front of a key without dots. -/
theorem splitAtLastDot?_append (path : String) {key : String} (hkey : '.' ∉ key.toList) :
    splitAtLastDot? (path ++ "." ++ key) = some (path, key) := by
  have hreversed : (path ++ "." ++ key).toList.reverse = key.toList.reverse ++ '.' :: path.toList.reverse := by
    simp
  have hlast : ∀ ch ∈ key.toList.reverse, (ch != '.') = true := by
    intro ch hch
    exact bne_iff_ne.2 fun hdot => hkey (hdot ▸ List.mem_reverse.1 hch)
  unfold splitAtLastDot?
  rw [hreversed, if_pos (by simp)]
  simp only [List.takeWhile_append_of_pos hlast, List.dropWhile_append_of_pos hlast]
  simp

/-- A path that relations to one row lead along, and behind it a field, is a column of the joined rows. -/
theorem columnReference_path (hsegments : m.registry.HasSegmentKeys) (hm : m ∈ m.registry.members)
    {keys : List String} (hkeys : keys ≠ []) (htarget : m.follow? keys = some target) {key : String}
    (hkey : key ∈ target.entity.fields.keys) (qualifier? : Option String) :
    c.columnReference m (".".intercalate keys ++ "." ++ key) qualifier? =
      .ok (aliasedColumn (".".intercalate keys) (target.columnName key)) := by
  obtain ⟨hregistry, htargetMem, hall⟩ := m.follow?_spec hsegments hm htarget
  have hlast : '.' ∉ key.toList := (hsegments.field htargetMem hkey).2
  have hfields : m.entity.fields.get? (".".intercalate keys ++ "." ++ key) = none := by
    refine Assoc.get?_eq_none_iff.2 fun hmem => (hsegments.field hm hmem).2 ?_
    simp
  have hmember : memberAt? m (Sql.segments (".".intercalate keys)) = some target := by
    rw [Sql.segments_intercalate hall hkeys]
    exact Member.memberAt?_of_follow? htarget
  simp only [columnReference, hfields, splitAtLastDot?_append _ hlast, hmember,
    Sql.identifier_eq (Sql.intercalate_ne_empty hall hkeys)]
  rfl

end Compiler

end EntitySql
