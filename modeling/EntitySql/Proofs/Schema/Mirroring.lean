import EntitySql.Proofs.Schema.Synchronization
/-!
# Comparing the other way round

Where the case of letters counts and no table is left out, a comparison of two schemas the other way round
is its mirror image (`Schema.diff_mirrors`): what was created is dropped, what was dropped is created, and
what was altered is altered back. The two comparisons run over different lists, so their differences stand
in different orders, and what they tell a reader is different too.
-/

namespace EntitySql

/-- The change that leads back. -/
def Change.mirror {α : Type} : Change α → Change α
  | create item => drop item
  | drop item => create item
  | alter old new => alter new old

theorem Change.mirror_mirror {α : Type} (change : Change α) : change.mirror.mirror = change := by
  cases change <;> rfl

namespace Difference

variable {α : Type}

/-- The difference without its summary. -/
def untold (d : Difference α) : Difference α := { d with description := "" }

/-- The difference that leads back. -/
def mirror (d : Difference α) : Difference α := { d with change := d.change.mirror }

end Difference

/-- Whether the differences are those that lead back, in any order and whatever they tell a reader. The order
of tables is turned round. -/
structure SchemaDiff.Mirrors (d back : SchemaDiff) : Prop where
  tablesToCreate : back.tablesToCreate = d.tablesToDrop.reverse
  tablesToDrop : back.tablesToDrop = d.tablesToCreate.reverse
  columns : (back.columns.map fun entry => (entry.1, entry.2.untold)).Perm
    (d.columns.map fun entry => (entry.1, entry.2.mirror.untold))
  indexes : (back.indexes.map fun entry => (entry.1, entry.2.untold)).Perm
    (d.indexes.map fun entry => (entry.1, entry.2.mirror.untold))
  relationships : (back.relationships.map (·.untold)).Perm (d.relationships.map (·.mirror.untold))

/-! ## No attribute prefers a side -/

namespace ColumnType

theorem modifiersAgree_comm {α : Type} [DecidableEq α] (a b : Option α) :
    modifiersAgree a b = modifiersAgree b a := by
  cases a <;> cases b <;> simp [modifiersAgree, eq_comm]

theorem category_of_isEquivalent {a b : ColumnType} (h : a.isEquivalent b = true) :
    a.category = b.category := by
  rw [isEquivalent, Bool.and_eq_true] at h
  exact of_decide_eq_true h.1

theorem isEquivalent_comm (a b : ColumnType) : a.isEquivalent b = b.isEquivalent a := by
  by_cases hcategory : a.category = b.category
  · unfold isEquivalent
    rw [hcategory]
    cases b.category <;> simp [modifiersAgree_comm a.length?, modifiersAgree_comm a.precision?,
      modifiersAgree_comm a.scale?, eq_comm]
  · simp [isEquivalent, hcategory, Ne.symm hcategory]

end ColumnType

namespace Column

variable {old new : Column}

theorem typesMatch_comm (old new : Column) : typesMatch old new = typesMatch new old := by
  unfold typesMatch
  rw [ColumnType.isEquivalent_comm]
  ac_rfl

/-- Columns of one type are both boolean or neither is. -/
theorem boolean_iff_of_typesMatch (h : typesMatch old new = true) :
    new.type.category = .boolean ↔ old.type.category = .boolean := by
  rw [typesMatch, Bool.or_eq_true] at h
  rcases h with hinteger | hequivalent
  · simp only [Bool.and_eq_true, decide_eq_true_eq] at hinteger
    rw [hinteger.1.2, hinteger.2]
  · rw [ColumnType.category_of_isEquivalent hequivalent]

/-- Defaults are read by the desired type, which makes no difference where the types match. -/
theorem defaultsMatch_comm (h : typesMatch old new = true) :
    defaultsMatch old new = defaultsMatch new old := by
  simp only [defaultsMatch, boolean_iff_of_typesMatch h]
  rw [Bool.and_comm, BEq.comm]

theorem changes_eq_nil_comm (old new : Column) : changes old new = [] ↔ changes new old = [] := by
  have hback : ∀ old new : Column, changes old new = [] → changes new old = [] := by
    intro old new h
    simp only [changes, List.append_eq_nil_iff, changedFlag_eq_nil_iff, changedAttribute_eq_nil_iff] at h ⊢
    obtain ⟨⟨⟨⟨hnullable, hunique⟩, hcounted⟩, htypes⟩, hdefaults⟩ := h
    exact ⟨⟨⟨⟨hnullable.symm, hunique.symm⟩, hcounted.symm⟩, typesMatch_comm old new ▸ htypes⟩,
      defaultsMatch_comm htypes ▸ hdefaults⟩
  exact ⟨hback old new, hback new old⟩

end Column

theorem Index.changes_eq_nil_comm (fold : String → String) (old new : Index) :
    changes fold old new = [] ↔ changes fold new old = [] := by
  simp only [changes, List.append_eq_nil_iff, changedFlag_eq_nil_iff, changedAttribute_eq_nil_iff,
    beq_iff_eq]
  simp only [eq_comm]

theorem Relationship.changes_eq_nil_comm (fold : String → String) (old new : Relationship) :
    changes fold old new = [] ↔ changes fold new old = [] := by
  simp only [changes, endsMatch, List.append_eq_nil_iff, changedAttribute_eq_nil_iff, Bool.and_eq_true,
    beq_iff_eq]
  simp only [eq_comm]

/-! ## The items of one list -/

namespace ItemRules

variable {α : Type} {rules : ItemRules α} {fold : String → String} {counts : α → Bool}
  {desired current : List α}

theorem change_of_difference? {new : α} {d : Difference α}
    (h : rules.difference? fold current new = some d) :
    d.change.new? = some new ∧ d.name = rules.name new := by
  unfold difference? at h
  split at h
  · cases h
    exact ⟨rfl, rfl⟩
  · split at h
    · cases h
    · cases h
      exact ⟨rfl, rfl⟩

theorem change_of_drop? {old : α} {d : Difference α} (h : rules.drop? fold desired old = some d) :
    d.change = .drop old ∧ d.name = rules.name old := by
  unfold drop? at h
  split at h
  · cases h
    exact ⟨rfl, rfl⟩
  · cases h

/-- A difference has the name of the item that its change is about. -/
theorem name_of_mem_differences {d : Difference α}
    (h : d ∈ rules.differences fold counts desired current) : d.name = rules.subject d.change := by
  rcases List.mem_append.1 h with hfirst | hdrop
  · obtain ⟨new, _, hnew⟩ := List.mem_filterMap.1 hfirst
    obtain ⟨hchange, hname⟩ := change_of_difference? hnew
    exact hname.trans (subject_of_new? hchange).symm
  · obtain ⟨old, _, hold⟩ := List.mem_filterMap.1 hdrop
    obtain ⟨hchange, hname⟩ := change_of_drop? hold
    rw [hname, hchange]
    rfl

/-- No change is found twice. -/
theorem nodup_map_change (hdesired : desired.Nodup) (hcurrent : current.Nodup) :
    ((rules.differences fold counts desired current).map (·.change)).Nodup := by
  rw [differences, List.map_append, List.map_filterMap, List.map_filterMap]
  apply List.Nodup.append
  · apply (hdesired.filter _).filterMap
    intro new other change hnew hother
    obtain ⟨d, hd, rfl⟩ := Option.map_eq_some_iff.1 hnew
    obtain ⟨e, he, hsame⟩ := Option.map_eq_some_iff.1 hother
    have hchange := (change_of_difference? hd).1
    rw [← hsame, (change_of_difference? he).1] at hchange
    exact (Option.some.inj hchange).symm
  · apply (hcurrent.filter _).filterMap
    intro old other change hold hother
    obtain ⟨d, hd, rfl⟩ := Option.map_eq_some_iff.1 hold
    obtain ⟨e, he, hsame⟩ := Option.map_eq_some_iff.1 hother
    rw [(change_of_drop? hd).1, (change_of_drop? he).1] at hsame
    exact (Change.drop.inj hsame).symm
  · intro change hfirst hdrop
    obtain ⟨new, _, hnew⟩ := List.mem_filterMap.1 hfirst
    obtain ⟨old, _, hold⟩ := List.mem_filterMap.1 hdrop
    obtain ⟨d, hd, rfl⟩ := Option.map_eq_some_iff.1 hnew
    obtain ⟨e, he, hsame⟩ := Option.map_eq_some_iff.1 hold
    have hchange := (change_of_difference? hd).1
    rw [← hsame, (change_of_drop? he).1] at hchange
    cases hchange

section Exact

variable (hdesired : (desired.map rules.name).Nodup) (hcurrent : (current.map rules.name).Nodup)
  (hchanges : ∀ old new, rules.changes old new = [] ↔ rules.changes new old = [])

include hdesired hchanges

/-- What is required the other way round leads back. -/
theorem Requires.mirror {change : Change α}
    (h : rules.Requires id (fun _ => true) desired current change) :
    rules.Requires id (fun _ => true) current desired change.mirror := by
  cases change with
  | create new => exact h
  | drop old => exact h
  | alter old new =>
    obtain ⟨hnew, _, hfound, hdiffers⟩ := h
    obtain ⟨hold, hname⟩ := mem_of_find? hfound
    have hback : rules.find? id desired (rules.name old) = some new :=
      hname ▸ find?_self hdesired hnew
    exact ⟨hold, rfl, hback, fun hsame => hdiffers ((hchanges old new).2 hsame)⟩

include hcurrent

theorem mem_map_change_mirror {change : Change α} :
    change ∈ (rules.differences id (fun _ => true) current desired).map (·.change) ↔
      change ∈ ((rules.differences id (fun _ => true) desired current).map (·.change)).map
        Change.mirror := by
  rw [mem_map_change_iff]
  constructor
  · intro h
    exact List.mem_map.2 ⟨change.mirror, mem_map_change_iff.2 (h.mirror hcurrent hchanges),
      change.mirror_mirror⟩
  · intro h
    obtain ⟨change, hchange, rfl⟩ := List.mem_map.1 h
    exact (mem_map_change_iff.1 hchange).mirror hdesired hchanges

/-- The differences the other way round are those that lead back, under the same names. -/
theorem mirror_differences_perm :
    ((rules.differences id (fun _ => true) current desired).map (·.untold)).Perm
      ((rules.differences id (fun _ => true) desired current).map (·.mirror.untold)) := by
  let plain (change : Change α) : Difference α :=
    { name := rules.subject change, change, description := "" }
  let forth := rules.differences id (fun _ => true) desired current
  let back := rules.differences id (fun _ => true) current desired
  have hback : back.map (·.untold) = (back.map (·.change)).map plain := by
    rw [List.map_map]
    apply List.map_congr_left
    intro d hd
    show d.untold = plain d.change
    rw [Difference.untold, name_of_mem_differences hd]
  have hforth : forth.map (·.mirror.untold) = ((forth.map (·.change)).map Change.mirror).map plain := by
    rw [List.map_map, List.map_map]
    apply List.map_congr_left
    intro d hd
    have hrequires := mem_map_change_iff.1 (List.mem_map.2 ⟨d, hd, rfl⟩)
    have hsubject : rules.subject d.change.mirror = rules.subject d.change := by
      cases hchange : d.change with
      | create _ => rfl
      | drop _ => rfl
      | alter old new =>
        rw [hchange] at hrequires
        exact (mem_of_find? hrequires.2.2.1).2
    show d.mirror.untold = plain d.change.mirror
    rw [Difference.mirror, Difference.untold, name_of_mem_differences hd, ← hsubject]
  have hchange : (back.map (·.change)).Perm ((forth.map (·.change)).map Change.mirror) := by
    apply (List.perm_ext_iff_of_nodup ?_ ?_).2
    · intro change
      exact mem_map_change_mirror hdesired hcurrent hchanges
    · exact nodup_map_change (.of_map _ hcurrent) (.of_map _ hdesired)
    · exact (nodup_map_change (.of_map _ hdesired) (.of_map _ hcurrent)).map
        (Function.Involutive.injective Change.mirror_mirror)
  rw [hback, hforth]
  exact hchange.map plain

end Exact

end ItemRules

/-! ## Two schemas -/

namespace Schema

variable {a b : Schema} {o : DiffOptions}

/-- Tables that are matched are matched the other way round. -/
theorem swap_matchedTables_perm (ha : a.tables.IsNamed Table.name) (hb : b.tables.IsNamed Table.name)
    (ho : o.ignoreCase = false) :
    (matchedTables b a o).Perm ((matchedTables a b o).map Prod.swap) := by
  have hnodup : ∀ {desired current : Schema}, desired.tables.IsNamed Table.name →
      (matchedTables desired current o).Nodup := by
    intro desired current hdesired
    apply (List.Nodup.of_map _ (nodup_comparedTables hdesired)).filterMap
    intro t other pair ht hother
    obtain ⟨_, _, rfl⟩ := Option.map_eq_some_iff.1 ht
    obtain ⟨_, _, hsame⟩ := Option.map_eq_some_iff.1 hother
    exact (congrArg Prod.fst hsame).symm
  have hback : ∀ {desired current : Schema} {new old : Table}, desired.tables.IsNamed Table.name →
      current.tables.IsNamed Table.name → (new, old) ∈ matchedTables desired current o →
        (old, new) ∈ matchedTables current desired o := by
    intro desired current new old hdesired hcurrent hmatch
    obtain ⟨hnew, hcounts, hold⟩ := (mem_matched_iff ho hdesired).1 hmatch
    have hname : old.name = new.name := hcurrent _ _ hold
    rw [mem_matched_iff ho hcurrent, hname]
    exact ⟨hold, hcounts, hnew⟩
  apply (List.perm_ext_iff_of_nodup (hnodup hb)
    ((hnodup ha).map (Function.Involutive.injective Prod.swap_swap))).2
  intro pair
  constructor
  · intro hpair
    exact List.mem_map.2 ⟨pair.swap, hback hb ha hpair, pair.swap_swap⟩
  · intro hpair
    obtain ⟨matched, hmatched, rfl⟩ := List.mem_map.1 hpair
    exact hback ha hb hmatched

/-- The differences of all matched tables lead back if those of each pair do. -/
theorem mirror_flatMap_perm {α : Type} (ha : a.tables.IsNamed Table.name)
    (hb : b.tables.IsNamed Table.name) (ho : o.ignoreCase = false)
    (differences : Table → Table → List (Difference α))
    (hdifferences : ∀ pair ∈ matchedTables a b o,
      ((differences pair.2 pair.1).map (·.untold)).Perm
        ((differences pair.1 pair.2).map (·.mirror.untold))) :
    (((matchedTables b a o).flatMap fun pair =>
        (differences pair.1 pair.2).map (pair.1.name, ·)).map fun entry =>
          (entry.1, entry.2.untold)).Perm
      (((matchedTables a b o).flatMap fun pair =>
        (differences pair.1 pair.2).map (pair.1.name, ·)).map fun entry =>
          (entry.1, entry.2.mirror.untold)) := by
  rw [List.map_flatMap, List.map_flatMap]
  refine ((swap_matchedTables_perm ha hb ho).flatMap_right _).trans ?_
  rw [List.flatMap_map]
  apply List.Perm.flatMap_left
  intro pair hpair
  have hname : pair.2.name = pair.1.name := by
    exact hb _ _ ((mem_matched_iff ho ha).1 hpair).2.2
  have hpairs := (hdifferences pair hpair).map (pair.1.name, ·)
  rw [List.map_map, List.map_map] at hpairs ⊢
  simpa only [Function.comp_def, Prod.fst_swap, Prod.snd_swap, hname] using hpairs

/-- Where the case of letters counts and no table is left out, the comparison the other way round is the
mirror image. -/
theorem diff_mirrors (ha : a.IsNamed) (hb : b.IsNamed)
    (haIndexes : ∀ t ∈ a.tables.values, (t.indexes.map Index.name).Nodup)
    (hbIndexes : ∀ t ∈ b.tables.values, (t.indexes.map Index.name).Nodup)
    (ho : o.ignoreCase = false) (hexcluded : o.excludeTables = []) :
    (a.diff b o).Mirrors (b.diff a o) := by
  have hfold : o.fold = id := DiffOptions.fold_of_exact ho
  have hcounts : (fun r : Relationship => !o.excludes r.referencing.table) = fun _ => true := by
    funext r
    simp only [DiffOptions.excludes, hexcluded, List.any_nil, Bool.not_false]
  have hnew : ∀ pair ∈ matchedTables a b o, pair.1 ∈ a.tables.values := fun pair hpair =>
    Assoc.mem_values_of_get? ((mem_matched_iff ho ha.tables).1 hpair).1
  have hold : ∀ pair ∈ matchedTables a b o, pair.2 ∈ b.tables.values := fun pair hpair =>
    Assoc.mem_values_of_get? ((mem_matched_iff ho ha.tables).1 hpair).2.2
  constructor
  · simp only [diff, List.filter_reverse, List.reverse_reverse]
  · simp only [diff, List.filter_reverse]
  · simp only [diff, hfold]
    apply mirror_flatMap_perm ha.tables hb.tables ho fun new old =>
      Column.rules.differences id (fun _ => true) new.columns.values old.columns.values
    intro pair hpair
    exact ItemRules.mirror_differences_perm (ha.columns _ (hnew pair hpair)).nodup
      (hb.columns _ (hold pair hpair)).nodup Column.changes_eq_nil_comm
  · simp only [diff]
    split
    · simp only [hfold]
      apply mirror_flatMap_perm ha.tables hb.tables ho fun new old =>
        (Index.rules id).differences id (fun _ => true) new.indexes old.indexes
      intro pair hpair
      exact ItemRules.mirror_differences_perm (haIndexes _ (hnew pair hpair))
        (hbIndexes _ (hold pair hpair)) (Index.changes_eq_nil_comm id)
    · exact .nil
  · simp only [diff]
    split
    · rw [hcounts, hfold]
      exact ItemRules.mirror_differences_perm ha.relationships.nodup hb.relationships.nodup
        (Relationship.changes_eq_nil_comm id)
    · exact .nil

/-- Books get authors and unique titles, and lose their numbers. -/
theorem diff_mirrors_books :
    let id : Column := { name := "id", type := .integer .regular, isPrimaryKey := true }
    let title : Column := { name := "title", type := { category := .string } }
    let number : Column := { name := "number", type := .integer .regular }
    let byTitle : Index := { name := "by_title", columns := ["title"] }
    let book := (Table.addColumn { name := "book" } id).addColumn title
    let a : Schema := addForeignKey
      ((addTable {} (Table.addColumn { name := "author" } id)).addTable
        ((book.addColumn { number with name := "author" }).addIndex { byTitle with unique := true }))
      { name := "fk_book_author", referencing := ⟨"book", ["author"]⟩, referenced := ⟨"author", ["id"]⟩ }
    let b : Schema := addTable {} ((book.addColumn number).addIndex byTitle)
    (a.diff b {}).Mirrors (b.diff a {}) ∧
      (a.diff b {}).tableDiffs.map (·.table) = ["author", "book"] ∧
      (b.diff a {}).tableDiffs.map (·.table) = ["book"] ∧
      (b.diff a {}).tablesToDrop.map (·.name) = ["author"] := by
  intro id title number byTitle book a b
  have ha : a.IsNamed := by decide +kernel
  have hb : b.IsNamed := by decide +kernel
  have haIndexes : ∀ t ∈ a.tables.values, (t.indexes.map Index.name).Nodup := by decide +kernel
  have hbIndexes : ∀ t ∈ b.tables.values, (t.indexes.map Index.name).Nodup := by decide +kernel
  exact ⟨diff_mirrors ha hb haIndexes hbIndexes rfl rfl, by decide +kernel, by decide +kernel,
    by decide +kernel⟩

end Schema

end EntitySql
