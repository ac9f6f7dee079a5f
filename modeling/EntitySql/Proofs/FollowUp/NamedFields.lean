import EntitySql.Proofs.Comparisons
import EntitySql.Proofs.FollowUp.Rows
/-!
# Fields that follow-up queries name

Filter and order of a relation query name fields of the related entity, and a follow-up query takes both over. A
relation through a junction is loaded from the junction, which has fields of its own, and its filter and order are
taken over all the same. `DeferredRelation.namesStored_followUp_iff` says when all fields that the follow-up query
names are stored in the entity that it is run on.
-/

namespace EntitySql

/-! ## Fields that filters and orders name -/

/-- Whether a filter names a field: somewhere it puts a condition on the field or searches in it. -/
def Filter.Names (filter : Filter) (field : String) : Prop :=
  (∃ condition, filter.Holds field (.field condition)) ∨
    ∃ key search, filter.Holds key (.search search) ∧ field ∈ search.fields

/-- Whether filter and order name stored fields of the entity only. -/
structure NamesStored (e : Entity) (filter : Filter) (order? : Option OrderBy) : Prop where
  filter : ∀ field, filter.Names field → e.isStored field = true
  order : ∀ terms ∈ order?, ∀ term ∈ terms,
    e.isStored term.1 = true ∧ ∃ direction, term.2 = .direction direction

namespace Filter

variable {list other : Filter} {name key field : String} {value : FilterEntry} {condition : Condition}

/-- What a filter holds, one of its entries holds. -/
theorem holds_iff : list.Holds name value ↔ ∃ entry ∈ list, Filter.Holds name value [entry] := by
  constructor
  · intro h
    cases h with
    | entry hmem => exact ⟨_, hmem, .entry (.head _)⟩
    | group hgroup hitem hinner => exact ⟨_, hgroup, .group (.head _) hitem hinner⟩
  · rintro ⟨entry, hentry, h⟩
    cases h with
    | entry hmem =>
      rw [List.mem_singleton] at hmem
      exact .entry (hmem ▸ hentry)
    | group hgroup hitem hinner =>
      rw [List.mem_singleton] at hgroup
      exact .group (hgroup ▸ hentry) hitem hinner

theorem holds_condition_iff :
    Filter.Holds name value [(key, .field condition)] ↔ (name, value) = (key, .field condition) := by
  constructor
  · intro h
    cases h with
    | entry hmem => exact List.mem_singleton.1 hmem
    | group hgroup _ _ => cases List.mem_singleton.1 hgroup
  · intro h
    exact .entry (h ▸ .head _)

/-- A condition that is put under a key is held beside what the filter holds under others. -/
theorem holds_put_iff :
    Filter.Holds name value (Entries.put key (.field condition) list) ↔
      (name, value) = (key, .field condition) ∨ Filter.Holds name value (list.eraseP (·.1 = key)) := by
  rw [holds_iff]
  constructor
  · rintro ⟨entry, hentry, h⟩
    rcases Entries.mem_put_iff.1 hentry with rfl | hentry
    · exact .inl (holds_condition_iff.1 h)
    · exact .inr (holds_iff.2 ⟨entry, hentry, h⟩)
  · rintro (h | h)
    · exact ⟨_, Entries.mem_put_self _ _ _, holds_condition_iff.2 h⟩
    · obtain ⟨entry, hentry, h⟩ := holds_iff.1 h
      exact ⟨entry, Entries.mem_put_iff.2 (.inr hentry), h⟩

theorem Names.mono (hsub : list ⊆ other) (h : list.Names field) : other.Names field := by
  have hholds : ∀ {name value}, list.Holds name value → other.Holds name value := by
    intro name value h
    obtain ⟨entry, hentry, h⟩ := holds_iff.1 h
    exact holds_iff.2 ⟨entry, hsub hentry, h⟩
  rcases h with ⟨condition, h⟩ | ⟨key, search, h, hfield⟩
  · exact .inl ⟨condition, hholds h⟩
  · exact .inr ⟨key, search, hholds h, hfield⟩

/-- A filter into which a condition is put names its field beside those that are left. -/
theorem names_put_iff :
    Filter.Names (Entries.put key (.field condition) list) field ↔
      field = key ∨ Filter.Names (list.eraseP (·.1 = key)) field := by
  constructor
  · rintro (⟨found, h⟩ | ⟨name, search, h, hfield⟩)
    · rcases holds_put_iff.1 h with h | h
      · exact .inl (Prod.mk.inj h).1
      · exact .inr (.inl ⟨found, h⟩)
    · rcases holds_put_iff.1 h with h | h
      · cases (Prod.mk.inj h).2
      · exact .inr (.inr ⟨name, search, h, hfield⟩)
  · rintro (rfl | ⟨found, h⟩ | ⟨name, search, h, hfield⟩)
    · exact .inl ⟨condition, holds_put_iff.2 (.inl rfl)⟩
    · exact .inl ⟨found, holds_put_iff.2 (.inr h)⟩
    · exact .inr ⟨name, search, holds_put_iff.2 (.inr h), hfield⟩

end Filter

/-- A condition that is put adds its field to those that are named. -/
theorem namesStored_put_iff {e : Entity} {list : Filter} {key : String} {condition : Condition}
    {order? : Option OrderBy} :
    NamesStored e (Entries.put key (.field condition) list) order? ↔
      e.isStored key = true ∧ NamesStored e (list.eraseP (·.1 = key)) order? := by
  constructor
  · intro h
    refine ⟨h.filter key (Filter.names_put_iff.2 (.inl rfl)), fun field hfield => ?_, h.order⟩
    exact h.filter field (Filter.names_put_iff.2 (.inr hfield))
  · rintro ⟨hkey, h⟩
    refine ⟨fun field hfield => ?_, h.order⟩
    rcases Filter.names_put_iff.1 hfield with rfl | hfield
    · exact hkey
    · exact h.filter field hfield

/-- A condition on a field, in the order of that field. -/
theorem namesStored_condition {e : Entity} {key : String} (hkey : e.isStored key = true) (condition : Condition)
    (direction : Direction) :
    NamesStored e [(key, .field condition)] (some [(key, .direction direction)]) where
  filter field hfield := by
    rcases hfield with ⟨_, h⟩ | ⟨_, _, h, _⟩
    · rwa [(Prod.mk.inj (Filter.holds_condition_iff.1 h)).1]
    · cases Filter.holds_condition_iff.1 h
  order terms hterms term hterm := by
    cases hterms
    rw [List.mem_singleton.1 hterm]
    exact ⟨hkey, direction, rfl⟩

/-! ## Follow-up queries -/

namespace DeferredRelation

variable {d : DeferredRelation} {r : Registry} {owner : Member} {relation : Relation} {pair : KeyPair}
  {others : List KeyPair}

/-- If a relation query names stored fields of the related entity only, then all fields that the follow-up query
names are stored in the entity that it is run on, if and only if the field that points back at the parents is, and
through a junction all that the relation query names as well, but for a condition that stands under that field. -/
theorem namesStored_followUp_iff (hresolve : d.resolve r = .ok (owner, relation))
    (hpairs : relation.keyPairs = pair :: others) {related : Member}
    (hrelated : r.member relation.entity = .ok related)
    (hnames : NamesStored related.entity d.ownFilter d.query.order?) (parents : List Value) :
    ∃ query list, d.followUp r parents = .ok (relation.queried, query) ∧
      query.criterion? = some (.filter list) ∧
      ∀ target, r.member relation.queried = .ok target →
        (NamesStored target.entity list query.order? ↔
          target.entity.isStored (relation.parentField pair) = true ∧
            (relation.through? = none ∨
              NamesStored target.entity (d.otherEntries (relation.parentField pair)) d.query.order?)) := by
  refine ⟨_, _, followUp_eq_parentsQuery hresolve hpairs parents, rfl, fun target htarget => ?_⟩
  rw [← ownFilter, ofParents, namesStored_put_iff]
  refine and_congr_right fun _ => ⟨.inr, fun h => h.elim (fun hthrough => ?_) id⟩
  have hsame : relation.queried = relation.entity := by rw [Relation.queried, hthrough, Option.getD_none]
  rw [hsame, hrelated] at htarget
  obtain rfl := Except.ok.inj htarget
  exact ⟨fun field hfield => hnames.filter field (hfield.mono List.eraseP_subset), hnames.order⟩

/-- The units of a category by name, in the order of their names. -/
theorem namesStored_followUp_iff_units :
    let own : Filter := [("name", .field (.value (.text "kg")))]
    let d := unitsOf { filter? := some own, order? := some [("name", .direction .ascending)] }
    ∃ owner target query list, d.resolve categories = .ok (owner, categoryUnits) ∧
      categories.member "unit" = .ok target ∧ NamesStored target.entity own d.query.order? ∧
      d.followUp categories [.int 1] = .ok ("unit", query) ∧ query.criterion? = some (.filter list) ∧
      NamesStored target.entity list query.order? := by
  intro own d
  obtain ⟨owner, hresolve⟩ : ∃ owner, d.resolve categories = .ok (owner, categoryUnits) := ⟨_, rfl⟩
  obtain ⟨target, htarget, hname, hcategory⟩ : ∃ target, categories.member "unit" = .ok target ∧
      target.entity.isStored "name" = true ∧ target.entity.isStored "categoryId" = true :=
    ⟨_, rfl, by decide +kernel, by decide +kernel⟩
  have hnames : NamesStored target.entity own d.query.order? := namesStored_condition hname _ _
  obtain ⟨query, list, hquery, hlist, hiff⟩ := namesStored_followUp_iff hresolve rfl htarget hnames [.int 1]
  exact ⟨owner, target, query, list, hresolve, htarget, hnames, hquery, hlist,
    (hiff target htarget).2 ⟨hcategory, .inl rfl⟩⟩

/-- The tags of an item by name: the query for them is run on the entries that tie tags to items, which have no
names. -/
theorem names_field_of_tags :
    let id : Field := { type := .integer }
    let tags : Relation :=
      { entity := "tag", cardinality := .manyToMany, keyPairs := [⟨"itemId", "id"⟩, ⟨"tagId", "id"⟩]
        through? := some "itemTag" }
    let item : Entity :=
      { name := "item", fields := Assoc.ofPairs [("id", id)], relations := Assoc.ofPairs [("tags", tags)] }
    let tag : Entity :=
      { name := "tag", fields := Assoc.ofPairs [("id", id), ("name", { type := .string })] }
    let itemTag : Entity :=
      { name := "itemTag", fields := Assoc.ofPairs [("id", id), ("itemId", id), ("tagId", id)] }
    let r := Registry.ofList [item, tag, itemTag]
    let c : Compiler := { dialect := .mysql, expander := fun _ _ => .ok "" }
    let own : Filter := [("name", .field (.value (.text "new")))]
    let order : OrderBy := [("name", .direction .ascending)]
    let d : DeferredRelation :=
      { path := "tags", owner := "item", relation := "tags", query := { filter? := some own, order? := some order } }
    ∃ owner related target query list, d.resolve r = .ok (owner, tags) ∧ r.member "tag" = .ok related ∧
      NamesStored related.entity own order ∧ d.followUp r [.int 7] = .ok ("itemTag", query) ∧
      r.member "itemTag" = .ok target ∧ query.criterion? = some (.filter list) ∧
      ¬NamesStored target.entity list query.order? ∧
      (c.find target query).map c.dialect.render =
        .ok ("SELECT `id`, `itemId`, `tagId` FROM `itemTag` " ++
          "WHERE `name` = 'new' AND `itemId` IN (7) ORDER BY `name`") := by
  intro id tags item tag itemTag r c own order d
  obtain ⟨related, hrelated, hstored⟩ : ∃ related, r.member "tag" = .ok related ∧
      related.entity.isStored "name" = true := ⟨_, rfl, by decide +kernel⟩
  obtain ⟨target, htarget, hmissing⟩ : ∃ target, r.member "itemTag" = .ok target ∧
      target.entity.isStored "name" = false := ⟨_, rfl, by decide +kernel⟩
  refine ⟨_, related, target, _, _, rfl, hrelated, namesStored_condition hstored _ _, rfl, htarget, rfl,
    fun h => ?_, ?_⟩
  · have hname := (h.order _ rfl _ (.head _)).1
    rw [hmissing] at hname
    cases hname
  · cases htarget
    decide +kernel

end DeferredRelation

end EntitySql
