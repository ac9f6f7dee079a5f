import Mathlib.Tactic.MkIffOfInductiveProp
import EntitySql.Proofs.LetterCase
import EntitySql.Proofs.Schema.SelfComparison
/-!
# Names in another case

A comparison that ignores the case of letters should not notice when the names of the current schema are
spelled in another case (`Schema.SpelledLike`). It folds the names of tables, columns, indexes and
relationships, the columns of indexes and the tables that relationships refer to. It does not fold the
columns on both sides of a relationship, so it does notice when those are spelled differently, provided that
nothing else differs (`Schema.isEmpty_diff_respelled_iff`).
-/

namespace EntitySql

/-! ## Names in lower case -/

/-- The column with its names in lower case. -/
def Column.inLower (c : Column) : Column :=
  { c with name := Text.asciiLowered c.name, table := Text.asciiLowered c.table }

/-- The index with its names in lower case, those of its columns included. -/
def Index.inLower (i : Index) : Index :=
  { i with
    name := Text.asciiLowered i.name
    table := Text.asciiLowered i.table
    columns := i.columns.map Text.asciiLowered }

/-- The endpoint with its names in lower case. -/
def Endpoint.inLower (e : Endpoint) : Endpoint :=
  { table := Text.asciiLowered e.table, columns := e.columns.map Text.asciiLowered }

namespace Relationship

/-- The foreign key with all its names in lower case. -/
def inLower (r : Relationship) : Relationship :=
  { r with
    name := Text.asciiLowered r.name
    referencing := r.referencing.inLower
    referenced := r.referenced.inLower }

/-- The columns on both sides. -/
def keyColumns (r : Relationship) : List String × List String :=
  (r.referencing.columns, r.referenced.columns)

/-- The foreign key with its columns in the form that decides about a match of names. -/
def foldColumns (fold : String → String) (r : Relationship) : Relationship :=
  { r with
    referencing := { r.referencing with columns := r.referencing.columns.map fold }
    referenced := { r.referenced with columns := r.referenced.columns.map fold } }

end Relationship

/-- All that a comparison reads of a table, with the names in lower case. -/
def Table.reading (t : Table) : String × List Column × List Index :=
  (Text.asciiLowered t.name, t.columns.values.map Column.inLower, t.indexes.map Index.inLower)

namespace Schema

/-- Whether two schemas differ by nothing but the case of letters of ASCII in names, in all that a comparison
reads. A schema with other spellings of its names is spelled like it, if each name is respelled wherever it
occurs. -/
structure SpelledLike (s other : Schema) : Prop where
  tables : s.tables.values.map Table.reading = other.tables.values.map Table.reading
  relationships :
    s.relationships.values.map Relationship.inLower = other.relationships.values.map Relationship.inLower

instance (s other : Schema) : Decidable (s.SpelledLike other) :=
  decidable_of_iff
    (s.tables.values.map Table.reading = other.tables.values.map Table.reading ∧
      s.relationships.values.map Relationship.inLower =
        other.relationships.values.map Relationship.inLower)
    ⟨fun h => ⟨h.1, h.2⟩, fun h => ⟨h.tables, h.relationships⟩⟩

/-- Whether nothing differs if the columns of relationships are matched in any case too. -/
@[mk_iff]
structure AgreesInAnyCase (desired current : Schema) (o : DiffOptions) : Prop where
  created : (desired.diff current o).tablesToCreate = []
  dropped : (desired.diff current o).tablesToDrop = []
  columns : (desired.diff current o).columns = []
  indexes : (desired.diff current o).indexes = []
  relationships : o.compareRelationships = true →
    (Relationship.rules o.fold).Agrees o.fold (fun r => !o.excludes r.referencing.table)
      (desired.relationships.values.map (·.foldColumns o.fold))
      (current.relationships.values.map (·.foldColumns o.fold))

/-- Whether the columns of each desired relationship that counts are spelled as in its match. -/
def KeysSpelledAlike (desired current : Schema) (o : DiffOptions) : Prop :=
  ∀ new ∈ desired.relationships.values, o.excludes new.referencing.table = false →
    ∀ old, (Relationship.rules o.fold).find? o.fold current.relationships.values new.name = some old →
      old.keyColumns = new.keyColumns

end Schema

/-! ## Agreement up to the case of letters -/

/-- What does not touch folded names leads to the match. -/
theorem find?_map_fold {α β : Type} {fold : String → String} {f : α → β} {name : α → String}
    {name' : β → String} (h : ∀ a, fold (name' (f a)) = fold (name a)) (items : List α) (wanted : String) :
    ((items.map f).find? fun b => fold (name' b) == fold wanted) =
      (items.find? fun a => fold (name a) == fold wanted).map f := by
  have hmatch : (fun b => fold (name' b) == fold wanted) ∘ f = fun a => fold (name a) == fold wanted := by
    funext a
    exact congrArg (· == fold wanted) (h a)
  rw [List.find?_map, hmatch]

namespace ItemRules

variable {α : Type} {rules : ItemRules α} {fold : String → String} {counts : α → Bool}
  {desired current : List α}

theorem find?_congr {items : List α} {name other : String} (h : fold name = fold other) :
    rules.find? fold items name = rules.find? fold items other := by
  rw [find?, find?, h]

theorem find?_map {f : α → α} (hf : ∀ a, fold (rules.name (f a)) = fold (rules.name a))
    (items : List α) (name : String) :
    rules.find? fold (items.map f) name = (rules.find? fold items name).map f :=
  find?_map_fold hf items name

/-- Agreement of items that are changed on both sides without touching their folded names. -/
theorem agrees_map_iff {f g : α → α} (hf : ∀ a, fold (rules.name (f a)) = fold (rules.name a))
    (hg : ∀ a, fold (rules.name (g a)) = fold (rules.name a)) (hcountsf : ∀ a, counts (f a) = counts a)
    (hcountsg : ∀ a, counts (g a) = counts a) :
    rules.Agrees fold counts (desired.map f) (current.map g) ↔
      (∀ new ∈ desired, counts new = true →
        ∃ old, rules.find? fold current (rules.name new) = some old ∧
          rules.changes (g old) (f new) = []) ∧
        ∀ old ∈ current, counts old = true →
          ∃ new, rules.find? fold desired (rules.name old) = some new := by
  have hnew : ∀ new, rules.find? fold (current.map g) (rules.name (f new)) =
      (rules.find? fold current (rules.name new)).map g := fun new =>
    (find?_map hg current _).trans (congrArg (Option.map g) (find?_congr (hf new)))
  have hold : ∀ old, rules.find? fold (desired.map f) (rules.name (g old)) =
      (rules.find? fold desired (rules.name old)).map f := fun old =>
    (find?_map hf desired _).trans (congrArg (Option.map f) (find?_congr (hg old)))
  constructor
  · intro h
    constructor
    · intro new hmem hcounts
      obtain ⟨_, hfound, hsame⟩ :=
        h.unchanged (f new) (List.mem_map.2 ⟨new, hmem, rfl⟩) ((hcountsf new).trans hcounts)
      obtain ⟨old, hold, rfl⟩ := Option.map_eq_some_iff.1 ((hnew new).symm.trans hfound)
      exact ⟨old, hold, hsame⟩
    · intro old hmem hcounts
      obtain ⟨_, hfound⟩ :=
        h.wanted (g old) (List.mem_map.2 ⟨old, hmem, rfl⟩) ((hcountsg old).trans hcounts)
      obtain ⟨new, hnew, _⟩ := Option.map_eq_some_iff.1 ((hold old).symm.trans hfound)
      exact ⟨new, hnew⟩
  · rintro ⟨hunchanged, hwanted⟩
    constructor
    · intro _ himage hcounts
      obtain ⟨new, hmem, rfl⟩ := List.mem_map.1 himage
      obtain ⟨old, hfound, hsame⟩ := hunchanged new hmem ((hcountsf new).symm.trans hcounts)
      exact ⟨g old, (hnew new).trans (congrArg (Option.map g) hfound), hsame⟩
    · intro _ himage hcounts
      obtain ⟨old, hmem, rfl⟩ := List.mem_map.1 himage
      obtain ⟨new, hfound⟩ := hwanted old hmem ((hcountsg old).symm.trans hcounts)
      exact ⟨f new, (hold old).trans (congrArg (Option.map f) hfound)⟩

/-- Agreement is not affected by what is done to the current items if it leads to the same matches and the
same comparisons. -/
theorem agrees_map_congr {f g : α → α} (hf : ∀ a, fold (rules.name (f a)) = fold (rules.name a))
    (hg : ∀ a, fold (rules.name (g a)) = fold (rules.name a)) (hcountsf : ∀ a, counts (f a) = counts a)
    (hcountsg : ∀ a, counts (g a) = counts a)
    (hchanges : ∀ old new, rules.changes (f old) new = [] ↔ rules.changes (g old) new = []) :
    rules.Agrees fold counts desired (current.map f) ↔ rules.Agrees fold counts desired (current.map g) := by
  have hleft : rules.Agrees fold counts (desired.map id) (current.map f) ↔ _ :=
    agrees_map_iff (fun _ => rfl) hf (fun _ => rfl) hcountsf
  have hright : rules.Agrees fold counts (desired.map id) (current.map g) ↔ _ :=
    agrees_map_iff (fun _ => rfl) hg (fun _ => rfl) hcountsg
  rw [List.map_id] at hleft hright
  rw [hleft, hright]
  simp only [hchanges]

theorem agrees_map_current_iff {g : α → α} (hg : ∀ a, fold (rules.name (g a)) = fold (rules.name a))
    (hcounts : ∀ a, counts (g a) = counts a)
    (hchanges : ∀ old new, rules.changes (g old) new = [] ↔ rules.changes old new = []) :
    rules.Agrees fold counts desired (current.map g) ↔ rules.Agrees fold counts desired current := by
  have hboth : rules.Agrees fold counts desired (current.map g) ↔
      rules.Agrees fold counts desired (current.map id) :=
    agrees_map_congr hg (fun _ => rfl) hcounts (fun _ => rfl) hchanges
  rwa [List.map_id] at hboth

end ItemRules

/-! ## What is read in lower case -/

section Folding

variable {fold : String → String} (hfold : ∀ name, fold (Text.asciiLowered name) = fold name)

include hfold

theorem map_map_asciiLowered (names : List String) :
    (names.map Text.asciiLowered).map fold = names.map fold := by
  rw [List.map_map]
  exact List.map_congr_left fun name _ => hfold name

theorem Index.changes_inLower_eq_nil_iff (old new : Index) :
    changes fold old.inLower new = [] ↔ changes fold old new = [] := by
  simp only [changes, List.append_eq_nil_iff, changedFlag_eq_nil_iff, changedAttribute_eq_nil_iff,
    inLower, map_map_asciiLowered hfold, method]

theorem Relationship.changes_inLower_eq_nil_iff (old new : Relationship) :
    changes fold (old.inLower.foldColumns fold) new = [] ↔
      changes fold (old.foldColumns fold) new = [] := by
  simp only [changes, endsMatch, List.append_eq_nil_iff, changedAttribute_eq_nil_iff, foldColumns, inLower,
    Endpoint.inLower, hfold, map_map_asciiLowered hfold, deleteAction, updateAction]

end Folding

/-- Foreign keys that are alike in any case are alike if their columns are spelled alike. -/
theorem Relationship.changes_eq_nil_iff (fold : String → String) (old new : Relationship) :
    changes fold old new = [] ↔
      changes fold (old.foldColumns fold) (new.foldColumns fold) = [] ∧
        old.keyColumns = new.keyColumns := by
  simp only [changes, endsMatch, List.append_eq_nil_iff, changedAttribute_eq_nil_iff, Bool.and_eq_true,
    beq_iff_eq, foldColumns, keyColumns, deleteAction, updateAction, Prod.mk.injEq]
  constructor
  · rintro ⟨hactions, ⟨htable, hreferenced⟩, hreferencing⟩
    exact ⟨⟨hactions, ⟨htable, congrArg _ hreferenced⟩, congrArg _ hreferencing⟩, hreferencing.symm,
      hreferenced.symm⟩
  · rintro ⟨⟨hactions, ⟨htable, _⟩, _⟩, hreferencing, hreferenced⟩
    exact ⟨hactions, ⟨htable, hreferenced.symm⟩, hreferencing.symm⟩

namespace DiffOptions

variable {o : DiffOptions} (ho : o.ignoreCase = true)

include ho

theorem fold_asciiLowered (name : String) : o.fold (Text.asciiLowered name) = o.fold name := by
  rw [fold, fold, if_pos ho, if_pos ho]
  exact Text.lowered_asciiLowered name

theorem excludes_asciiLowered (name : String) :
    o.excludes (Text.asciiLowered name) = o.excludes name := by
  rw [excludes, excludes, fold_asciiLowered ho]

theorem findTable?_asciiLowered (s : Schema) (name : String) :
    o.findTable? s (Text.asciiLowered name) = o.findTable? s name := by
  rw [findTable?, findTable?, if_pos ho, if_pos ho, fold_asciiLowered ho]

/-- What a table that is found reads like is found by its folded name. -/
theorem map_reading_findTable? (s : Schema) (name : String) :
    (o.findTable? s name).map Table.reading =
      (s.tables.values.map Table.reading).find? fun reading => o.fold reading.1 == o.fold name := by
  rw [findTable?, if_pos ho]
  apply Eq.symm
  apply find?_map_fold
  exact fun t => fold_asciiLowered ho t.name

end DiffOptions

namespace Schema

variable {desired current other : Schema} {o : DiffOptions}

theorem mem_comparedTables_of_nodup {s : Schema} (hs : (s.tables.values.map Table.name).Nodup)
    {t : Table} : t ∈ s.comparedTables o ↔ t ∈ s.tables.values ∧ o.excludes t.name = false := by
  rw [comparedTables, List.mem_filter, (s.sortedTables_perm_of_nodup hs).mem_iff, Bool.not_eq_true']

/-- What holds of all matches by what they read like. -/
theorem forall_matchedTables_iff {s : Schema} {P : Table → String × List Column × List Index → Prop} :
    (∀ pair ∈ matchedTables desired s o, P pair.1 pair.2.reading) ↔
      ∀ new ∈ desired.comparedTables o, ∀ reading,
        (o.findTable? s new.name).map Table.reading = some reading → P new reading := by
  constructor
  · intro h new hnew reading hfound
    obtain ⟨old, hold, rfl⟩ := Option.map_eq_some_iff.1 hfound
    exact h (new, old) (mem_matchedTables.2 ⟨hnew, hold⟩)
  · intro h pair hpair
    obtain ⟨hnew, hold⟩ := mem_matchedTables.1 hpair
    exact h pair.1 hnew _ (Option.map_eq_some_iff.2 ⟨pair.2, hold, rfl⟩)

section AnyCase

variable (ho : o.ignoreCase = true)

include ho

theorem columns_diff_eq_nil_iff_reading :
    (desired.diff current o).columns = [] ↔
      ∀ pair ∈ matchedTables desired current o,
        Column.rules.Agrees o.fold (fun _ => true) pair.1.columns.values pair.2.reading.2.1 := by
  rw [columns_diff_eq_nil_iff]
  apply forall₂_congr
  intro pair _
  apply Iff.symm
  apply ItemRules.agrees_map_current_iff
  · exact fun c => DiffOptions.fold_asciiLowered ho c.name
  · exact fun _ => rfl
  · exact fun _ _ => Iff.rfl

theorem indexes_diff_eq_nil_iff_reading :
    (desired.diff current o).indexes = [] ↔
      (o.compareIndexes = true → ∀ pair ∈ matchedTables desired current o,
        (Index.rules o.fold).Agrees o.fold (fun _ => true) pair.1.indexes pair.2.reading.2.2) := by
  rw [indexes_diff_eq_nil_iff]
  apply forall_congr'
  intro _
  apply forall₂_congr
  intro pair _
  apply Iff.symm
  apply ItemRules.agrees_map_current_iff
  · exact fun i => DiffOptions.fold_asciiLowered ho i.name
  · exact fun _ => rfl
  · exact Index.changes_inLower_eq_nil_iff (DiffOptions.fold_asciiLowered ho)

theorem tablesToDrop_eq_nil_iff_reading (hnames : (current.tables.values.map Table.name).Nodup) :
    (desired.diff current o).tablesToDrop = [] ↔
      ∀ reading ∈ current.tables.values.map Table.reading, o.excludes reading.1 = false →
        o.findTable? desired reading.1 ≠ none := by
  rw [List.eq_nil_iff_forall_not_mem, List.forall_mem_map]
  apply forall_congr'
  intro t
  simp only [mem_tablesToDrop, mem_comparedTables_of_nodup hnames, Table.reading,
    DiffOptions.excludes_asciiLowered ho, DiffOptions.findTable?_asciiLowered ho, not_and, and_imp, ne_eq]

/-- Foreign keys agree in any case with what they read like. -/
theorem agrees_foldColumns_iff_reading {wanted : List Relationship} :
    (Relationship.rules o.fold).Agrees o.fold (fun r => !o.excludes r.referencing.table) wanted
        (current.relationships.values.map (·.foldColumns o.fold)) ↔
      (Relationship.rules o.fold).Agrees o.fold (fun r => !o.excludes r.referencing.table) wanted
        ((current.relationships.values.map Relationship.inLower).map (·.foldColumns o.fold)) := by
  rw [List.map_map]
  apply ItemRules.agrees_map_congr
  · exact fun _ => rfl
  · exact fun r => DiffOptions.fold_asciiLowered ho r.name
  · exact fun _ => rfl
  · exact fun r => congrArg (!·) (DiffOptions.excludes_asciiLowered ho r.referencing.table)
  · exact fun old new =>
      (Relationship.changes_inLower_eq_nil_iff (DiffOptions.fold_asciiLowered ho) old new).symm

end AnyCase

section SpelledLike

variable (ho : o.ignoreCase = true) (h : current.SpelledLike other)

include ho h

theorem SpelledLike.findTable? (name : String) :
    (o.findTable? current name).map Table.reading = (o.findTable? other name).map Table.reading := by
  rw [DiffOptions.map_reading_findTable? ho, DiffOptions.map_reading_findTable? ho, h.tables]

theorem SpelledLike.forall_matchedTables_iff
    (P : Table → String × List Column × List Index → Prop) :
    (∀ pair ∈ matchedTables desired current o, P pair.1 pair.2.reading) ↔
      ∀ pair ∈ matchedTables desired other o, P pair.1 pair.2.reading := by
  rw [Schema.forall_matchedTables_iff, Schema.forall_matchedTables_iff]
  simp only [h.findTable? ho]

theorem SpelledLike.tablesToCreate :
    (desired.diff current o).tablesToCreate = (desired.diff other o).tablesToCreate := by
  apply List.filter_congr
  intro t _
  rw [← Option.isNone_map (f := Table.reading), h.findTable? ho, Option.isNone_map]

theorem SpelledLike.map_fold_name :
    (current.tables.values.map fun t => o.fold t.name) =
      other.tables.values.map fun t => o.fold t.name := by
  have hreading : ∀ s : Schema, (s.tables.values.map fun t => o.fold t.name) =
      (s.tables.values.map Table.reading).map fun reading => o.fold reading.1 := by
    intro s
    rw [List.map_map]
    exact List.map_congr_left fun t _ => (DiffOptions.fold_asciiLowered ho t.name).symm
  rw [hreading, hreading, h.tables]

/-- Whether schemas agree in any case does not depend on how the current one is spelled. -/
theorem SpelledLike.agreesInAnyCase_iff
    (hnames : (current.tables.values.map fun t => o.fold t.name).Nodup) :
    desired.AgreesInAnyCase current o ↔ desired.AgreesInAnyCase other o := by
  have hdistinct : ∀ {s : Schema}, (s.tables.values.map fun t => o.fold t.name).Nodup →
      (s.tables.values.map Table.name).Nodup := by
    intro s hs
    apply List.Nodup.of_map o.fold
    rwa [List.map_map]
  have hother : (other.tables.values.map fun t => o.fold t.name).Nodup := h.map_fold_name ho ▸ hnames
  have hdropped : (desired.diff current o).tablesToDrop = [] ↔
      (desired.diff other o).tablesToDrop = [] := by
    rw [tablesToDrop_eq_nil_iff_reading ho (hdistinct hnames),
      tablesToDrop_eq_nil_iff_reading ho (hdistinct hother), h.tables]
  have hcolumns : (desired.diff current o).columns = [] ↔ (desired.diff other o).columns = [] := by
    rw [columns_diff_eq_nil_iff_reading ho, columns_diff_eq_nil_iff_reading ho]
    exact h.forall_matchedTables_iff ho fun new reading =>
      Column.rules.Agrees o.fold (fun _ => true) new.columns.values reading.2.1
  have hindexes : (desired.diff current o).indexes = [] ↔ (desired.diff other o).indexes = [] := by
    rw [indexes_diff_eq_nil_iff_reading ho, indexes_diff_eq_nil_iff_reading ho]
    exact imp_congr_right fun _ => h.forall_matchedTables_iff ho fun new reading =>
      (Index.rules o.fold).Agrees o.fold (fun _ => true) new.indexes reading.2.2
  rw [Schema.agreesInAnyCase_iff, Schema.agreesInAnyCase_iff, h.tablesToCreate ho, hdropped, hcolumns, hindexes,
    agrees_foldColumns_iff_reading ho, agrees_foldColumns_iff_reading ho, h.relationships]

/-- Where the columns of foreign keys are spelled as before, it does not matter how the rest is spelled. -/
theorem SpelledLike.keysSpelledAlike_iff
    (hkeys : current.relationships.values.map Relationship.keyColumns =
      other.relationships.values.map Relationship.keyColumns) :
    desired.KeysSpelledAlike current o ↔ desired.KeysSpelledAlike other o := by
  let both (r : Relationship) : Relationship × List String × List String := (r.inLower, r.keyColumns)
  have hboth : current.relationships.values.map both = other.relationships.values.map both := by
    have hzip : ∀ keys : List Relationship,
        keys.map both = (keys.map Relationship.inLower).zip (keys.map Relationship.keyColumns) :=
      fun _ => List.zip_map'.symm
    rw [hzip, hzip, h.relationships, hkeys]
  have hfind : ∀ (s : Schema) (name : String),
      ((Relationship.rules o.fold).find? o.fold s.relationships.values name).map both =
        (s.relationships.values.map both).find? fun pair => o.fold pair.1.name == o.fold name := by
    intro s name
    apply Eq.symm
    apply find?_map_fold
    exact fun r => DiffOptions.fold_asciiLowered ho r.name
  have hmatches : ∀ s : Schema, desired.KeysSpelledAlike s o ↔
      ∀ new ∈ desired.relationships.values, o.excludes new.referencing.table = false → ∀ pair,
        (s.relationships.values.map both).find? (fun pair => o.fold pair.1.name == o.fold new.name) =
          some pair → pair.2 = new.keyColumns := by
    intro s
    simp only [← hfind, Option.map_eq_some_iff, forall_exists_index, and_imp, forall_apply_eq_imp_iff₂]
    rfl
  rw [hmatches, hmatches, hboth]

end SpelledLike

/-- Foreign keys agree exactly if they agree in any case and their columns are spelled alike. -/
theorem relationships_agree_iff :
    (Relationship.rules o.fold).Agrees o.fold (fun r => !o.excludes r.referencing.table)
        desired.relationships.values current.relationships.values ↔
      (Relationship.rules o.fold).Agrees o.fold (fun r => !o.excludes r.referencing.table)
          (desired.relationships.values.map (·.foldColumns o.fold))
          (current.relationships.values.map (·.foldColumns o.fold)) ∧
        desired.KeysSpelledAlike current o := by
  have hfolded : (Relationship.rules o.fold).Agrees o.fold (fun r => !o.excludes r.referencing.table)
      (desired.relationships.values.map (·.foldColumns o.fold))
      (current.relationships.values.map (·.foldColumns o.fold)) ↔ _ :=
    ItemRules.agrees_map_iff (fun _ => rfl) (fun _ => rfl) (fun _ => rfl) fun _ => rfl
  rw [hfolded]
  constructor
  · intro h
    refine ⟨⟨fun new hnew hcounts => ?_, h.wanted⟩, fun new hnew hcounts old hold => ?_⟩
    · obtain ⟨old, hold, hsame⟩ := h.unchanged new hnew hcounts
      exact ⟨old, hold, ((Relationship.changes_eq_nil_iff o.fold old new).1 hsame).1⟩
    · obtain ⟨found, hfound, hsame⟩ := h.unchanged new hnew (by rw [hcounts]; rfl)
      obtain rfl := Option.some.inj (hold.symm.trans hfound)
      exact ((Relationship.changes_eq_nil_iff o.fold old new).1 hsame).2
  · rintro ⟨⟨hunchanged, hwanted⟩, hkeys⟩
    refine ⟨fun new hnew hcounts => ?_, hwanted⟩
    obtain ⟨old, hold, hsame⟩ := hunchanged new hnew hcounts
    have hspelled := hkeys new hnew (by simpa using hcounts) old hold
    exact ⟨old, hold, (Relationship.changes_eq_nil_iff o.fold old new).2 ⟨hsame, hspelled⟩⟩

/-- Nothing differs exactly if the schemas agree in any case and the columns of foreign keys are spelled
alike. -/
theorem isEmpty_diff_iff :
    (desired.diff current o).isEmpty = true ↔
      desired.AgreesInAnyCase current o ∧
        (o.compareRelationships = true → desired.KeysSpelledAlike current o) := by
  simp only [SchemaDiff.isEmpty, Bool.and_eq_true, List.isEmpty_iff, relationships_diff_eq_nil_iff,
    relationships_agree_iff, agreesInAnyCase_iff, imp_and, and_assoc]

/-- With letters in any case, re-spelling the current schema makes no difference to whether anything differs,
exactly if the columns of foreign keys are spelled as desired before and after, or neither before nor after,
where all else agrees. In particular it makes none where no column of a foreign key is respelled. -/
theorem isEmpty_diff_respelled_iff (ho : o.ignoreCase = true)
    (hnames : (current.tables.values.map fun t => o.fold t.name).Nodup)
    (hspelled : current.SpelledLike other) :
    ((desired.diff current o).isEmpty = (desired.diff other o).isEmpty ↔
      (desired.AgreesInAnyCase current o → o.compareRelationships = true →
        (desired.KeysSpelledAlike current o ↔ desired.KeysSpelledAlike other o))) ∧
    (current.relationships.values.map Relationship.keyColumns =
        other.relationships.values.map Relationship.keyColumns →
      (desired.diff current o).isEmpty = (desired.diff other o).isEmpty) := by
  have hagrees : desired.AgreesInAnyCase current o ↔ desired.AgreesInAnyCase other o :=
    hspelled.agreesInAnyCase_iff ho hnames
  have hiff : (desired.diff current o).isEmpty = (desired.diff other o).isEmpty ↔
      (desired.AgreesInAnyCase current o → o.compareRelationships = true →
        (desired.KeysSpelledAlike current o ↔ desired.KeysSpelledAlike other o)) := by
    rw [Bool.eq_iff_iff, isEmpty_diff_iff, isEmpty_diff_iff, ← hagrees]
    tauto
  refine ⟨hiff, fun hkeys => hiff.2 fun _ _ => hspelled.keysSpelledAlike_iff ho hkeys⟩

/-- Posts and the users who wrote them, with every name in the given spelling. -/
def postsSpelled (spell : String → String) : Schema :=
  let column (name : String) : Column := { name := spell name, type := .integer .regular }
  let user := Table.addColumn { name := spell "user" } { column "id" with isPrimaryKey := true }
  let post := ((Table.addColumn { name := spell "post" } { column "id" with isPrimaryKey := true }).addColumn
    (column "author")).addColumn (column "rank")
  { tables := Assoc.ofPairs
      [(spell "user", user),
        (spell "post", post.addIndex { name := spell "by_rank", columns := [spell "rank"] })]
    relationships := Assoc.ofPairs
      [(spell "fk_post_author",
        { name := spell "fk_post_author"
          referencing := { table := spell "post", columns := [spell "author"] }
          referenced := { table := spell "user", columns := [spell "id"] } })] }

/-- In capitals everything but the columns of the foreign key is found again. -/
theorem isEmpty_diff_respelled_iff_capitals :
    let o : DiffOptions := { ignoreCase := true }
    let capitals := postsSpelled fun name =>
      if name = "id" ∨ name = "author" then name else Text.asciiRaised name
    capitals ≠ postsSpelled id ∧ (postsSpelled id).SpelledLike capitals ∧
      ((postsSpelled id).diff (postsSpelled id) o).isEmpty = true ∧
      ((postsSpelled id).diff capitals o).isEmpty = true := by
  intro o capitals
  have hnames : ((postsSpelled id).tables.values.map fun t => o.fold t.name).Nodup := by decide +kernel
  have hspelled : (postsSpelled id).SpelledLike capitals := by decide +kernel
  have hsame : ((postsSpelled id).diff (postsSpelled id) o).isEmpty =
      ((postsSpelled id).diff capitals o).isEmpty :=
    (isEmpty_diff_respelled_iff rfl hnames hspelled).2 (by decide +kernel)
  have hempty : ((postsSpelled id).diff (postsSpelled id) o).isEmpty = true := by decide +kernel
  exact ⟨by decide +kernel, hspelled, hempty, hsame ▸ hempty⟩

/-- A capital letter in the column of the foreign key makes the foreign key differ, though the column is found
again. -/
theorem differs_in_case_of_key :
    let o : DiffOptions := { ignoreCase := true }
    let current := postsSpelled id
    let other := postsSpelled fun name => if name = "author" then "Author" else name
    current.SpelledLike other ∧ current.DistinctNames o ∧ other.DistinctNames o ∧
      (current.diff current o).isEmpty = true ∧ (current.diff other o).isEmpty = false := by
  intro o current other
  refine ⟨by decide +kernel, ⟨?_, ?_, ?_, ?_⟩, ⟨?_, ?_, ?_, ?_⟩, ?_, ?_⟩
  all_goals decide +kernel

end Schema

end EntitySql
