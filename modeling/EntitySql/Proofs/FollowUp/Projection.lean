import EntitySql.Compile.Find
import EntitySql.Compile.FollowUp
import EntitySql.Proofs.Joins.Path
/-!
# What follow-up queries read

A follow-up query has to read the key by which its rows are told apart, beside what the relation query asks for.
A list of fields takes one more, but a map speaks of all fields at once: as soon as it includes one, those that it
does not name are gone. `DeferredRelation.admitsKey_iff` says for which projections the key can be added without
loss.
-/

namespace EntitySql

/-! ## Entries that are put -/

namespace Entries

variable {α : Type} {key : String} {value : α} {entries : List (String × α)} {entry : String × α}

/-- An entry that is put takes the place of the first one under its key. -/
theorem mem_put_iff :
    entry ∈ put key value entries ↔ entry = (key, value) ∨ entry ∈ entries.eraseP (·.1 = key) := by
  induction entries with
  | nil => simp [put]
  | cons first rest ih =>
    obtain ⟨name, old⟩ := first
    rw [put, List.eraseP_cons]
    by_cases hkey : name = key
    · simp [hkey]
    · simp [hkey, ih, or_left_comm]

theorem mem_put_self (key : String) (value : α) (entries : List (String × α)) :
    (key, value) ∈ put key value entries := mem_put_iff.2 (.inl rfl)

theorem mem_put_of_ne (h : entry ∈ entries) (hne : entry.1 ≠ key) : entry ∈ put key value entries :=
  mem_put_iff.2 (.inr ((List.mem_eraseP_of_neg (by simpa using hne)).2 h))

theorem eq_or_mem_of_mem_put (h : entry ∈ put key value entries) : entry = (key, value) ∨ entry ∈ entries :=
  (mem_put_iff.1 h).imp_right List.mem_of_mem_eraseP

end Entries

namespace Compiler

variable {c : Compiler} {m : Member} {key : String} {options : FindOptions}

/-! ## Items of the root -/

/-- Whether a query qualifies the columns of its entity. -/
def isQualified (m : Member) (projection? : Option Projection) (options : FindOptions) : Bool :=
  (rootQualifier? m projection? options).isSome

/-- What a query reads of the rows of its entity. -/
def rootItems (m : Member) (projection? : Option Projection) (options : FindOptions) : List ProjectionItem :=
  if projection?.isSome && isQualified m projection? options then withId m (projectedItems m projection?)
  else projectedItems m projection?

theorem mem_rootItems_iff {projection? : Option Projection} {item : ProjectionItem} :
    item ∈ rootItems m projection? options ↔ item ∈ projectedItems m projection? ∨
      projection?.isSome = true ∧ isQualified m projection? options = true ∧ item = .field m.entity.id := by
  rw [rootItems]
  split
  · rename_i h
    obtain ⟨hsome, hqualified⟩ := Bool.and_eq_true_iff.1 h
    rw [withId]
    split
    · rename_i hid
      refine ⟨.inl, fun h => h.elim id ?_⟩
      rintro ⟨-, -, rfl⟩
      simpa using hid
    · rw [List.mem_cons, or_comm]
      exact or_congr_right ⟨fun hitem => ⟨hsome, hqualified, hitem⟩, fun h => h.2.2⟩
  · rename_i h
    refine ⟨.inl, fun hitem => hitem.elim id fun ⟨hsome, hqualified, _⟩ => ?_⟩
    exact absurd (by rw [hsome, hqualified]; rfl) h

/-- Whether entries include a field of the entity. -/
def IncludesField (m : Member) (entries : List (String × ProjectionEntry)) : Prop :=
  ∃ entry ∈ entries, m.entity.hasField entry.1 = true ∧ entry.2.isIncluded = true

/-- Whether entries leave the key out. -/
def leavesOut (entries : List (String × ProjectionEntry)) (key : String) : Bool :=
  (Entries.find? key entries).any ProjectionEntry.isExcluded

theorem mem_included_iff {entries : List (String × ProjectionEntry)} {item : ProjectionItem} :
    item ∈ (entries.filterMap fun (key, entry) =>
        if m.entity.hasField key && entry.isIncluded then some (ProjectionItem.field key) else none) ↔
      ∃ entry ∈ entries, m.entity.hasField entry.1 = true ∧ entry.2.isIncluded = true ∧
        item = .field entry.1 := by
  rw [List.mem_filterMap]
  refine exists_congr fun ⟨key, entry⟩ => and_congr_right fun _ => ?_
  rw [eq_comm (a := item)]
  simp [and_assoc]

/-- What a map asks for: the fields that it includes, and if there are none, those that it does not leave
out. -/
theorem mem_projectedItems_map_iff {entries : List (String × ProjectionEntry)} {item : ProjectionItem} :
    item ∈ projectedItems m (some (.map entries)) ↔
      (∃ entry ∈ entries, m.entity.hasField entry.1 = true ∧ entry.2.isIncluded = true ∧
        item = .field entry.1) ∨
      ¬IncludesField m entries ∧
        ∃ field ∈ m.entity.fields.keys, leavesOut entries field = false ∧ item = .field field := by
  rw [projectedItems]
  dsimp only
  split
  · rename_i hempty
    have hnone : ¬IncludesField m entries := fun ⟨entry, hentry, hfield, hincluded⟩ => by
      have hitem := mem_included_iff.2 ⟨entry, hentry, hfield, hincluded, rfl⟩
      rw [List.isEmpty_iff.1 hempty] at hitem
      cases hitem
    constructor
    · intro hitem
      obtain ⟨field, hfield, rfl⟩ := List.mem_map.1 hitem
      obtain ⟨hknown, hkept⟩ := List.mem_filter.1 hfield
      exact .inr ⟨hnone, field, hknown, by simpa [leavesOut] using hkept, rfl⟩
    · rintro (⟨entry, hentry, hfield, hincluded, -⟩ | ⟨-, field, hknown, hkept, rfl⟩)
      · exact absurd ⟨entry, hentry, hfield, hincluded⟩ hnone
      · exact List.mem_map.2 ⟨field, List.mem_filter.2 ⟨hknown, by simpa [leavesOut] using hkept⟩, rfl⟩
  · rename_i hne
    rw [mem_included_iff]
    refine ⟨.inl, fun h => h.elim id fun ⟨hnone, _⟩ => absurd ?_ hnone⟩
    obtain ⟨item, hitem⟩ := List.exists_mem_of_ne_nil _ fun hnil => hne (List.isEmpty_iff.2 hnil)
    obtain ⟨entry, hentry, hfield, hincluded, -⟩ := mem_included_iff.1 hitem
    exact ⟨entry, hentry, hfield, hincluded⟩

theorem mem_projectedItems_of_none {entries : List (String × ProjectionEntry)}
    (h : ¬IncludesField m entries) {item : ProjectionItem} :
    item ∈ projectedItems m (some (.map entries)) ↔
      ∃ field ∈ m.entity.fields.keys, leavesOut entries field = false ∧ item = .field field := by
  rw [mem_projectedItems_map_iff, and_iff_right h]
  exact or_iff_right fun ⟨entry, hentry, hfield, hincluded, _⟩ => h ⟨entry, hentry, hfield, hincluded⟩

/-- With one more field included, a map asks for the fields that it includes. -/
theorem mem_projectedItems_put_iff (hkey : m.entity.hasField key = true)
    {entries : List (String × ProjectionEntry)} {item : ProjectionItem} :
    item ∈ projectedItems m (some (.map (Entries.put key (.flag true) entries))) ↔
      item = .field key ∨ ∃ entry ∈ entries, m.entity.hasField entry.1 = true ∧
        entry.2.isIncluded = true ∧ item = .field entry.1 := by
  have hself := Entries.mem_put_self key (ProjectionEntry.flag true) entries
  rw [mem_projectedItems_map_iff, or_iff_left fun h => h.1 ⟨_, hself, hkey, rfl⟩]
  constructor
  · rintro ⟨entry, hentry, hfield, hincluded, rfl⟩
    rcases Entries.eq_or_mem_of_mem_put hentry with rfl | hentry
    · exact .inl rfl
    · exact .inr ⟨entry, hentry, hfield, hincluded, rfl⟩
  · rintro (rfl | ⟨entry, hentry, hfield, hincluded, rfl⟩)
    · exact ⟨_, hself, hkey, rfl, rfl⟩
    · by_cases hne : entry.1 = key
      · exact ⟨_, hself, hkey, rfl, by rw [hne]⟩
      · exact ⟨entry, Entries.mem_put_of_ne hentry hne, hfield, hincluded, rfl⟩

/-! ## Relations under the key -/

theorem selectsRelation_put {entries : List (String × ProjectionEntry)}
    (h : selectsRelation m (some (.map entries)) = true) :
    selectsRelation m (some (.map (Entries.put key (.flag true) entries))) = true := by
  obtain ⟨entry, hentry, hselected⟩ := List.any_eq_true.1 h
  by_cases hne : entry.1 = key
  · refine List.any_eq_true.2 ⟨_, Entries.mem_put_self key (ProjectionEntry.flag true) entries, ?_⟩
    rw [← hne]
    exact (Bool.and_true _).trans (Bool.and_eq_true_iff.1 hselected).1
  · exact List.any_eq_true.2 ⟨entry, Entries.mem_put_of_ne hentry hne, hselected⟩

theorem isQualified_mono {first second : Option Projection}
    (h : selectsRelation m first = true → selectsRelation m second = true)
    (hfirst : isQualified m first options = true) : isQualified m second options = true := by
  rw [isQualified, rootQualifier?] at hfirst ⊢
  cases hqualifier : options.qualifier? with
  | some name => rfl
  | none =>
    rw [hqualifier] at hfirst
    cases hqualified : options.qualified with
    | true => rfl
    | false =>
      rw [hqualified] at hfirst
      cases hselects : selectsRelation m first with
      | true =>
        rw [h hselects]
        rfl
      | false =>
        rw [hselects] at hfirst
        cases hfirst

theorem rootQualifier?_congr {first second : Option Projection}
    (h : selectsRelation m first = selectsRelation m second) :
    rootQualifier? m first options = rootQualifier? m second options := by
  rw [rootQualifier?, rootQualifier?, h]

/-- A key that is no relation plans nothing. -/
theorem planEntry_of_none (hkey : m.entity.relations.get? key = none) (parent? : Option String)
    (entry : ProjectionEntry) : c.planEntry m parent? key entry = return .none := by
  rcases entry with (_ | _) | _
  · rfl
  · simp only [planEntry, hkey]
  · simp only [planEntry, hkey]

theorem planEntries_put (hkey : m.entity.relations.get? key = none) (parent? : Option String)
    (entry : ProjectionEntry) (entries : List (String × ProjectionEntry)) :
    c.planEntries m parent? (Entries.put key entry entries) = c.planEntries m parent? entries := by
  induction entries with
  | nil =>
    simp only [Entries.put, planEntries, planEntry_of_none hkey]
    rfl
  | cons first rest ih =>
    rw [Entries.put]
    split
    · rename_i hfirst
      rw [planEntries, planEntries, hfirst, planEntry_of_none hkey, planEntry_of_none hkey]
    · rw [planEntries, planEntries, ih]

theorem selectsRelation_put_of_none (hkey : m.entity.relations.contains key = false) (entry : ProjectionEntry)
    (entries : List (String × ProjectionEntry)) :
    selectsRelation m (some (.map (Entries.put key entry entries))) =
      selectsRelation m (some (.map entries)) := by
  rw [selectsRelation, selectsRelation]
  induction entries with
  | nil => simp [Entries.put, hkey]
  | cons first rest ih =>
    rw [Entries.put]
    split
    · rename_i hfirst
      simp [hfirst, hkey]
    · rw [List.any_cons, List.any_cons, ih]

/-! ## Statements -/

/-- Whether a statement reads the items of the rows of its entity. -/
def ReadsItems (c : Compiler) (m : Member) (qualifier? : Option String) (items : List ProjectionItem)
    (sql : Sql) : Prop :=
  ∃ columns rest, items.mapM (c.projectedItem m qualifier? false) = .ok columns ∧
    sql = .word "SELECT " :: Sql.commaList columns ++ rest

theorem commaList_cons (first : Sql) (rest : List Sql) :
    ∃ after, Sql.commaList (first :: rest) = first ++ after := by
  cases rest with
  | nil => exact ⟨[], by simp [Sql.commaList, Sql.join]⟩
  | cons second rest => exact ⟨_, rfl⟩

theorem ensures_readsItems (c : Compiler) (m : Member) (query : Query) (options : FindOptions) :
    Ensures (c.ReadsItems m (rootQualifier? m query.projection? options)
        (rootItems m query.projection? options)) (c.find m query options) := by
  refine .bind_ok fun selection hselection => .bind_any fun criteria => .pure ?_
  obtain ⟨fields, hfields, hselection⟩ := ok_of_bind_eq_ok hselection
  obtain ⟨plan, _, hselection⟩ := ok_of_bind_eq_ok hselection
  obtain ⟨columns, hcolumns, hfields⟩ := ok_of_bind_eq_ok hfields
  cases hfields
  cases hselection
  obtain ⟨after, hafter⟩ := commaList_cons (Sql.commaList columns) plan.fields
  refine ⟨columns, after ++ .word " FROM " :: Sql.path m.tableName ++ plan.tables ++ criteria, hcolumns, ?_⟩
  simp only [hafter, List.append_assoc, List.cons_append]

/-- A stored field can always be read. -/
theorem exists_projectedItem (hkey : m.entity.isStored key = true) (qualifier? : Option String)
    (aliased : Bool) : ∃ sql, c.projectedItem m qualifier? aliased (.field key) = .ok sql := by
  rw [projectedItem, computed?_eq_none hkey]
  dsimp only
  split <;> exact ⟨_, rfl⟩

/-- What else than a stored field is not asked for in vain can be asked for, with the same relations. -/
theorem exists_find (query : Query) {first second : Option Projection} {plain : Sql}
    (hplain : c.find m { query with projection? := first } options = .ok plain)
    (hselects : selectsRelation m second = selectsRelation m first)
    (hplan : c.plan m second none = c.plan m first none) (hkey : m.entity.isStored key = true)
    (hitems : ∀ item ∈ rootItems m second options, item = .field key ∨ item ∈ rootItems m first options) :
    ∃ sql, c.find m { query with projection? := second } options = .ok sql := by
  have hqualifier : rootQualifier? m second options = rootQualifier? m first options :=
    rootQualifier?_congr hselects
  obtain ⟨head, hselection, hplain⟩ := ok_of_bind_eq_ok hplain
  obtain ⟨rest, hrest, _⟩ := ok_of_bind_eq_ok hplain
  obtain ⟨fields, hfields, hselection⟩ := ok_of_bind_eq_ok hselection
  obtain ⟨plan, hjoins, _⟩ := ok_of_bind_eq_ok hselection
  obtain ⟨columns, hcolumns, _⟩ := ok_of_bind_eq_ok hfields
  obtain ⟨columns', hcolumns'⟩ : ∃ columns', (rootItems m second options).mapM
      (c.projectedItem m (rootQualifier? m second options) false) = .ok columns' := by
    refine exists_mapM_eq_ok fun item hitem => ?_
    rcases hitems item hitem with rfl | hitem
    · exact exists_projectedItem hkey _ _
    · rw [hqualifier]
      exact ok_of_mapM_eq_ok hcolumns hitem
  have hfields' : c.projectedFields m second (rootQualifier? m second options) false =
      .ok (Sql.commaList columns') := by
    rw [rootItems, isQualified] at hcolumns'
    rw [projectedFields, hcolumns']
    rfl
  have hrest' : c.criteria m { query with projection? := second } options = .ok rest := by
    rw [criteria, hqualifier]
    exact hrest
  have hhead' : c.selection m second options = .ok (.word "SELECT " ::
      Sql.commaList (Sql.commaList columns' :: plan.fields) ++ .word " FROM " :: Sql.path m.tableName ++
      plan.tables) := by
    rw [selection, hfields', hplan, hjoins]
    rfl
  have hfind : c.find m { query with projection? := second } options = do
      let head ← c.selection m second options
      let criteria ← c.criteria m { query with projection? := second } options
      return head ++ criteria := rfl
  rw [hfind, hhead', hrest']
  exact ⟨_, rfl⟩

/-! ## Adding the key -/

/-- Whether a field can be added to a projection such that all remains that the projection asks for. -/
def AdmitsKey (m : Member) (key : String) (qualified : Bool) : Option Projection → Prop
  | some (.map entries) =>
    if entries.any (·.2.isIncluded) then
      IncludesField m entries ∨ ∀ field ∈ m.entity.fields.keys, leavesOut entries field = false →
        field = key ∨ qualified = true ∧ field = m.entity.id
    else leavesOut entries key = false ∨ qualified = true ∧ key = m.entity.id
  | _ => True

/-- Nothing is lost if the key can be added. -/
theorem subset_rootItems_put_iff (hkey : m.entity.hasField key = true)
    (entries : List (String × ProjectionEntry)) :
    rootItems m (some (.map entries)) options ⊆
        rootItems m (some (.map (Entries.put key (.flag true) entries))) options ↔
      IncludesField m entries ∨ ∀ field ∈ m.entity.fields.keys, leavesOut entries field = false →
        field = key ∨ isQualified m (some (.map (Entries.put key (.flag true) entries))) options = true ∧
          field = m.entity.id := by
  constructor
  · intro hsubset
    refine or_iff_not_imp_left.2 fun hnone field hfield hkept => ?_
    have hasked : .field field ∈ projectedItems m (some (.map entries)) :=
      mem_projectedItems_map_iff.2 (.inr ⟨hnone, field, hfield, hkept, rfl⟩)
    rcases mem_rootItems_iff.1 (hsubset (mem_rootItems_iff.2 (.inl hasked))) with hread | ⟨-, hqualified, hid⟩
    · rcases (mem_projectedItems_put_iff hkey).1 hread with hread | ⟨entry, hentry, hknown, hincluded, -⟩
      · exact .inl (ProjectionItem.field.inj hread)
      · exact absurd ⟨entry, hentry, hknown, hincluded⟩ hnone
    · exact .inr ⟨hqualified, ProjectionItem.field.inj hid⟩
  · intro hadmits item hitem
    rcases mem_rootItems_iff.1 hitem with hitem | ⟨-, hqualified, rfl⟩
    · rcases mem_projectedItems_map_iff.1 hitem with hincluded | ⟨hnone, field, hfield, hkept, rfl⟩
      · exact mem_rootItems_iff.2 (.inl ((mem_projectedItems_put_iff hkey).2 (.inr hincluded)))
      · rcases hadmits.resolve_left hnone field hfield hkept with rfl | ⟨hqualified, rfl⟩
        · exact mem_rootItems_iff.2 (.inl ((mem_projectedItems_put_iff hkey).2 (.inl rfl)))
        · exact mem_rootItems_iff.2 (.inr ⟨rfl, hqualified, rfl⟩)
    · exact mem_rootItems_iff.2 (.inr ⟨rfl, isQualified_mono selectsRelation_put hqualified, rfl⟩)

end Compiler

namespace Relation

/-- The entity that is queried for the related rows. -/
def queried (relation : Relation) : String := relation.through?.getD relation.entity

/-- The key of the queried entity that points back at the parents. -/
def parentField (relation : Relation) (pair : KeyPair) : String :=
  if relation.through?.isSome then pair.near else pair.far

end Relation

namespace DeferredRelation

open Compiler

variable {m : Member} {key : String} {options : FindOptions} {relation : Relation}

/-! ## The projection of a follow-up query -/

section Projection

variable (hthrough : relation.through? = none)

include hthrough

theorem followUpProjection?_items (key : String) (list : List ProjectionItem) :
    followUpProjection? relation key (some (.items list)) =
      some (.items (if list.contains (.field key) then list else list ++ [.field key])) := by
  rw [followUpProjection?, hthrough, Option.isSome_none, if_neg Bool.false_ne_true, apply_ite Projection.items,
    apply_ite some]

theorem followUpProjection?_map (key : String) (entries : List (String × ProjectionEntry)) :
    followUpProjection? relation key (some (.map entries)) =
      some (.map (if entries.any (·.2.isIncluded) then Entries.put key (.flag true) entries else entries)) := by
  rw [followUpProjection?, hthrough, Option.isSome_none, if_neg Bool.false_ne_true, apply_ite Projection.map,
    apply_ite some]

/-- A list of items takes the key. -/
theorem mem_projectedItems_followUp_items (hkey : m.entity.hasField key = true) {list : List ProjectionItem}
    {item : ProjectionItem} :
    item ∈ projectedItems m (followUpProjection? relation key (some (.items list))) ↔
      item = .field key ∨ item ∈ projectedItems m (some (.items list)) := by
  rw [followUpProjection?_items hthrough]
  simp only [projectedItems, List.mem_filter]
  split
  · rename_i hmem
    refine ⟨.inr, fun h => h.elim ?_ id⟩
    rintro rfl
    exact ⟨by simpa using hmem, hkey⟩
  · rw [List.mem_append, List.mem_singleton, or_and_right, or_comm]
    refine or_congr_left ⟨And.left, ?_⟩
    rintro rfl
    exact ⟨rfl, hkey⟩

/-- The key is read along with all that the projection asks for exactly if it can be added. -/
theorem followUpProjection?_keeps_iff (hkey : m.entity.hasField key = true) (projection? : Option Projection) :
    (.field key ∈ rootItems m (followUpProjection? relation key projection?) options ∧
        rootItems m projection? options ⊆ rootItems m (followUpProjection? relation key projection?) options) ↔
      AdmitsKey m key (isQualified m (followUpProjection? relation key projection?) options) projection? := by
  rcases projection? with _ | (list | entries)
  · refine iff_of_true ⟨mem_rootItems_iff.2 (.inl ?_), List.Subset.refl _⟩ trivial
    exact List.mem_map_of_mem (Assoc.contains_iff.1 hkey)
  · refine iff_of_true ⟨?_, fun item hitem => ?_⟩ trivial
    · exact mem_rootItems_iff.2 (.inl ((mem_projectedItems_followUp_items hthrough hkey).2 (.inl rfl)))
    · rcases mem_rootItems_iff.1 hitem with hitem | ⟨-, hqualified, rfl⟩
      · exact mem_rootItems_iff.2 (.inl ((mem_projectedItems_followUp_items hthrough hkey).2 (.inr hitem)))
      · rw [followUpProjection?_items hthrough]
        exact mem_rootItems_iff.2 (.inr ⟨rfl, isQualified_mono (by simp [selectsRelation]) hqualified, rfl⟩)
  · rw [followUpProjection?_map hthrough, AdmitsKey]
    split
    · rw [← subset_rootItems_put_iff hkey]
      refine and_iff_right (mem_rootItems_iff.2 (.inl ((mem_projectedItems_put_iff hkey).2 (.inl rfl))))
    · rename_i hnone
      have hfields : ¬IncludesField m entries := by
        rintro ⟨entry, hentry, -, hincluded⟩
        exact hnone (List.any_eq_true.2 ⟨entry, hentry, hincluded⟩)
      rw [and_iff_left (List.Subset.refl _), mem_rootItems_iff, mem_projectedItems_of_none hfields]
      refine or_congr ⟨?_, fun hkept => ⟨key, Assoc.contains_iff.1 hkey, hkept, rfl⟩⟩ ?_
      · rintro ⟨field, -, hkept, hfield⟩
        rwa [ProjectionItem.field.inj hfield]
      · simp

/-- Beside the key nothing is read but what the projection asks for, if the key is no relation. -/
theorem eq_or_mem_of_mem_followUp (hkey : m.entity.hasField key = true)
    (hrelation : m.entity.relations.contains key = false) {projection? : Option Projection}
    {item : ProjectionItem} (h : item ∈ rootItems m (followUpProjection? relation key projection?) options) :
    item = .field key ∨ item ∈ rootItems m projection? options := by
  rcases projection? with _ | (list | entries)
  · exact .inr h
  · rcases mem_rootItems_iff.1 h with h | ⟨-, hqualified, rfl⟩
    · exact ((mem_projectedItems_followUp_items hthrough hkey).1 h).imp_right fun h =>
        mem_rootItems_iff.2 (.inl h)
    · rw [followUpProjection?_items hthrough] at hqualified
      exact .inr (mem_rootItems_iff.2 (.inr ⟨rfl, isQualified_mono (by simp [selectsRelation]) hqualified, rfl⟩))
  · rw [followUpProjection?_map hthrough] at h
    split at h
    · rcases mem_rootItems_iff.1 h with h | ⟨-, hqualified, rfl⟩
      · exact ((mem_projectedItems_put_iff hkey).1 h).imp_right fun h =>
          mem_rootItems_iff.2 (.inl (mem_projectedItems_map_iff.2 (.inl h)))
      · have hselects := selectsRelation_put_of_none hrelation (.flag true) entries
        exact .inr (mem_rootItems_iff.2
          (.inr ⟨rfl, isQualified_mono (fun h => hselects ▸ h) hqualified, rfl⟩))
    · exact .inr h

/-- A key that is no relation adds none. -/
theorem followUpProjection?_plans_same (c : Compiler) (hrelation : m.entity.relations.get? key = none)
    (projection? : Option Projection) :
    selectsRelation m (followUpProjection? relation key projection?) = selectsRelation m projection? ∧
      c.plan m (followUpProjection? relation key projection?) none = c.plan m projection? none := by
  have hcontains : m.entity.relations.contains key = false :=
    Assoc.contains_eq_false_iff.2 (Assoc.get?_eq_none_iff.1 hrelation)
  rcases projection? with _ | (list | entries)
  · exact ⟨rfl, rfl⟩
  · rw [followUpProjection?_items hthrough]
    exact ⟨rfl, rfl⟩
  · rw [followUpProjection?_map hthrough]
    split
    · exact ⟨selectsRelation_put_of_none hcontains _ entries, planEntries_put hrelation none _ entries⟩
    · exact ⟨rfl, rfl⟩

end Projection

/-! ## The follow-up query -/

/-- The entry of a filter for the rows of the parents. -/
def ofParents (parents : List Value) : FilterEntry :=
  .field (.ofOperator .oneOf (.value (.list parents)))

/-- The relation query for the rows of the parents, with a projection of its own. -/
def parentsQuery (d : DeferredRelation) (key : String) (parents : List Value) (projection? : Option Projection) :
    Query :=
  { projection?
    criterion? := some (.filter (Entries.put key (ofParents parents) (d.query.filter?.getD [])))
    order? := d.query.order?
    limit? := d.query.limit?
    skip? := d.query.skip? }

/-- With a junction or without, the queried entity is asked for the rows of the parents. -/
theorem followUp_eq_parentsQuery {d : DeferredRelation} {r : Registry} {owner : Member} {pair : KeyPair}
    {others : List KeyPair} (hresolve : d.resolve r = .ok (owner, relation))
    (hpairs : relation.keyPairs = pair :: others) (parents : List Value) :
    d.followUp r parents = .ok (relation.queried, d.parentsQuery (relation.parentField pair) parents
      (followUpProjection? relation (relation.parentField pair) d.query.projection?)) := by
  obtain ⟨entity, cardinality, keyPairs, through?, cascade⟩ := relation
  obtain rfl : keyPairs = pair :: others := hpairs
  rw [followUp, hresolve]
  cases through? <;> rfl

/-- Without a junction the related entity is queried by its key. -/
theorem followUp_eq {d : DeferredRelation} {r : Registry} {owner : Member} {pair : KeyPair}
    {others : List KeyPair} (hresolve : d.resolve r = .ok (owner, relation)) (hthrough : relation.through? = none)
    (hpairs : relation.keyPairs = pair :: others) (parents : List Value) :
    d.followUp r parents = .ok (relation.entity,
      d.parentsQuery pair.far parents (followUpProjection? relation pair.far d.query.projection?)) := by
  have hqueried : relation.queried = relation.entity := by rw [Relation.queried, hthrough, Option.getD_none]
  have hfield : relation.parentField pair = pair.far := by rw [Relation.parentField, hthrough]; rfl
  rw [followUp_eq_parentsQuery hresolve hpairs, hqueried, hfield]

theorem eq_parentsQuery {d : DeferredRelation} {r : Registry} {owner : Member} {pair : KeyPair}
    {others : List KeyPair} (hresolve : d.resolve r = .ok (owner, relation)) (hthrough : relation.through? = none)
    (hpairs : relation.keyPairs = pair :: others) {parents : List Value} {entity : String} {query : Query}
    (h : d.followUp r parents = .ok (entity, query)) :
    query = d.parentsQuery pair.far parents (followUpProjection? relation pair.far d.query.projection?) :=
  (Prod.mk.inj (Except.ok.inj (h.symm.trans (followUp_eq hresolve hthrough hpairs parents)))).2

/-- The query that loads a relation by a stored field of the related entity begins with the items of that entity.
They hold the field and all that the relation query asks for if and only if the field can be added to its
projection. If the field is no relation as well, adding it does no harm to the query. -/
theorem admitsKey_iff {d : DeferredRelation} {r : Registry} {owner : Member} {pair : KeyPair}
    {others : List KeyPair} (hresolve : d.resolve r = .ok (owner, relation)) (hthrough : relation.through? = none)
    (hpairs : relation.keyPairs = pair :: others) (parents : List Value) (c : Compiler) (options : FindOptions) :
    ∃ query, d.followUp r parents = .ok (relation.entity, query) ∧
      ∀ target, r.member relation.entity = .ok target → target.entity.isStored pair.far = true →
        (∀ projection? sql, c.find target { query with projection? } options = .ok sql →
          c.ReadsItems target (rootQualifier? target projection? options) (rootItems target projection? options)
            sql) ∧
        ((.field pair.far ∈ rootItems target query.projection? options ∧
            rootItems target d.query.projection? options ⊆ rootItems target query.projection? options) ↔
          AdmitsKey target pair.far (isQualified target query.projection? options) d.query.projection?) ∧
        (pair.far ∉ target.entity.relations.keys →
          ∀ plain, c.find target { query with projection? := d.query.projection? } options = .ok plain →
            ∃ sql, c.find target query options = .ok sql) := by
  refine ⟨_, followUp_eq hresolve hthrough hpairs parents, fun target _ hstored => ?_⟩
  have hkey : target.entity.hasField pair.far = true := by
    obtain ⟨field, hfield, _⟩ := exists_field hstored
    exact (Assoc.contains_eq_isSome _ _).trans (by rw [hfield, Option.isSome_some])
  refine ⟨fun projection? => ensures_readsItems c target (d.parentsQuery pair.far parents projection?) options,
    followUpProjection?_keeps_iff hthrough hkey _, fun hrelation plain hplain => ?_⟩
  have hnone : target.entity.relations.get? pair.far = none := Assoc.get?_eq_none_iff.2 hrelation
  obtain ⟨hselects, hplan⟩ := followUpProjection?_plans_same hthrough c hnone d.query.projection?
  exact exists_find (d.parentsQuery pair.far parents none) hplain hselects hplan hstored fun item hitem =>
    eq_or_mem_of_mem_followUp hthrough hkey (Assoc.contains_eq_false_iff.2 hrelation) hitem

/-- The units of categories. -/
def categoryUnits : Relation := { entity := "unit", cardinality := .oneToMany, keyPairs := [⟨"id", "categoryId"⟩] }

/-- Categories with their units, which know their category. -/
def categories : Registry :=
  .ofList [
    { name := "category", fields := Assoc.ofPairs [("id", { type := .integer })]
      relations := Assoc.ofPairs [("units", categoryUnits)] },
    { name := "unit"
      fields := Assoc.ofPairs
        [("id", { type := .integer }), ("name", { type := .string }), ("categoryId", { type := .integer })]
      relations := Assoc.ofPairs [("category",
        { entity := "category", cardinality := .manyToOne, keyPairs := [⟨"categoryId", "id"⟩] })] }]

/-- The units of categories, with the query for them. -/
def unitsOf (query : RelationQuery) : DeferredRelation :=
  { path := "units", owner := "category", relation := "units", query }

/-- The names of the units are read along with their categories. -/
theorem admitsKey_iff_units :
    let c : Compiler := { dialect := .mysql, expander := fun _ _ => .ok "" }
    let d := unitsOf { projection? := some (.map [("name", .flag true)]) }
    ∃ owner query target, d.resolve categories = .ok (owner, categoryUnits) ∧
      d.followUp categories [.int 1] = .ok ("unit", query) ∧ categories.member "unit" = .ok target ∧
      target.entity.isStored "categoryId" = true ∧ "categoryId" ∉ target.entity.relations.keys ∧
      (∃ sql, c.find target query = .ok sql) ∧
      .field "categoryId" ∈ rootItems target query.projection? {} ∧
      rootItems target d.query.projection? {} ⊆ rootItems target query.projection? {} := by
  intro c d
  obtain ⟨owner, hresolve⟩ : ∃ owner, d.resolve categories = .ok (owner, categoryUnits) := ⟨_, rfl⟩
  obtain ⟨target, htarget, hstored, hrelation⟩ : ∃ target, categories.member "unit" = .ok target ∧
      target.entity.isStored "categoryId" = true ∧ "categoryId" ∉ target.entity.relations.keys :=
    ⟨_, rfl, by decide +kernel, by decide +kernel⟩
  obtain ⟨query, hquery, hreads⟩ := admitsKey_iff hresolve rfl rfl [.int 1] c {}
  obtain ⟨_, hkeeps, hfind⟩ := hreads target htarget hstored
  have hplain : (c.find target (d.parentsQuery "categoryId" [.int 1] d.query.projection?)).toOption.isSome = true := by
    cases htarget
    decide +kernel
  obtain rfl := eq_parentsQuery hresolve rfl rfl hquery
  obtain ⟨plain, hplain⟩ := Option.isSome_iff_exists.1 hplain
  have hadmits : AdmitsKey target "categoryId"
      (isQualified target (some (.map [("name", .flag true), ("categoryId", .flag true)])) {})
      (some (.map [("name", .flag true)])) := by
    have hfield : target.entity.hasField "name" = true := by
      cases htarget
      decide +kernel
    rw [AdmitsKey, if_pos (by decide)]
    exact .inl ⟨_, .head _, hfield, rfl⟩
  exact ⟨owner, _, target, hresolve, hquery, htarget, hstored, hrelation,
    hfind hrelation plain (toOption_eq_some_iff.1 hplain), hkeeps.2 hadmits⟩

/-- A map that includes a relation and no field asks for all fields. With the key in it, it asks for the key
only. -/
theorem loses_fields_beside_relation :
    let c : Compiler := { dialect := .mysql, expander := fun _ _ => .ok "" }
    let d := unitsOf { projection? := some (.map [("category", .flag true)]) }
    ∃ owner query target, d.resolve categories = .ok (owner, categoryUnits) ∧
      d.followUp categories [.int 1, .int 2] = .ok ("unit", query) ∧ categories.member "unit" = .ok target ∧
      target.entity.isStored "categoryId" = true ∧
      rootItems target d.query.projection? {} = [.field "id", .field "name", .field "categoryId"] ∧
      rootItems target query.projection? {} = [.field "id", .field "categoryId"] ∧
      (c.find target query).map c.dialect.render =
        .ok ("SELECT `unit`.`id`, `unit`.`categoryId`, `category`.`id` `category.id` FROM `unit` " ++
          "LEFT JOIN `category` `category` ON `category`.`id` = `unit`.`categoryId` " ++
          "WHERE `unit`.`categoryId` IN (1, 2)") := by
  intro c d
  exact ⟨_, _, _, rfl, rfl, rfl, by decide +kernel, by decide +kernel, by decide +kernel, by decide +kernel⟩

end DeferredRelation

end EntitySql
