import EntitySql.Proofs.Schema.Execution
/-!
# When statements find what they need

Between two schemas the statements execute safely exactly if columns of one table and foreign keys of another
one do not get in each other's way (`Schema.IsSafeToApply`, `Schema.executesSafely_iff`). All else is taken
care of: created tables stand behind those that they refer to, columns are added to a table before others
refer to them, and what uses a column inside its table is dropped in front of it.
-/

namespace EntitySql.Schema

/-- What keeps columns of one table and foreign keys of another one from getting in each other's way. -/
structure IsSafeToApply (desired live : Schema) : Prop where
  /-- A foreign key that a table is created with refers to columns that the other table has already. -/
  created : ∀ r ∈ desired.relationships.values, r.name ∉ live.relationships.keys →
    r.referencing.table ∉ live.tables.keys → ∀ old ∈ live.tables.values,
      old.name = r.referenced.table → ∀ column ∈ r.referenced.columns, column ∈ old.columns.keys
  /-- A table is changed behind the tables whose foreign keys refer to columns that it loses. -/
  released : EachAfter
    (fun before table => ∀ r ∈ live.relationships.values, r.referenced.table = table →
      r.referencing.table ≠ table →
        (∃ column ∈ r.referenced.columns, column ∈ lostColumns desired live table) →
          r.referencing.table ∈ before)
    (desired.diff live {}).changedTables
  /-- A foreign key on columns that its table loses does not stay as that of another table. -/
  owned : ∀ r ∈ live.relationships.values,
    (∃ column ∈ r.referencing.columns, column ∈ lostColumns desired live r.referencing.table) →
      ∀ new ∈ desired.relationships.values, new.name = r.name → Relationship.changes id r new ≠ []

instance (desired live : Schema) : Decidable (desired.IsSafeToApply live) :=
  decidable_of_iff (_ ∧ _ ∧ _)
    ⟨fun ⟨created, released, owned⟩ => { created, released, owned },
      fun h => ⟨h.created, h.released, h.owned⟩⟩

variable {d : Dialect} {desired live : Schema}

section Intact

variable (hdesired : desired.IsIntact) (hlive : live.IsIntact)

include hdesired hlive

/-- A desired table exists or is created. -/
theorem table_mem_or_created {t : Table} (ht : t ∈ desired.tables.values) :
    .table t.name ∈ live.objects ∨ t ∈ (desired.diff live {}).tablesToCreate := by
  rw [mem_tablesToCreate_default_iff hdesired, table_mem_objects, ← hlive.tables.mem_keys_iff]
  exact or_iff_not_imp_left.2 fun h => ⟨ht, h⟩

/-- A desired column exists, is created with its table or is added. -/
theorem column_mem_or_created {t : Table} (ht : t ∈ desired.tables.values) {c : Column}
    (hc : c ∈ t.columns.values) :
    .column t.name c.name ∈ live.objects ∨ t ∈ (desired.diff live {}).tablesToCreate ∨
      c ∈ ((desired.diff live {}).changesOf t.name).addColumns := by
  by_cases hexists : t.name ∈ live.tables.keys
  · obtain ⟨old, hold⟩ := Assoc.mem_keys_iff.1 hexists
    by_cases hfound : ∃ other ∈ old.columns.values, other.name = c.name
    · exact .inl (column_mem_objects.2
        ⟨old, Assoc.mem_values_of_get? hold, hlive.tables _ _ hold, hfound⟩)
    · refine .inr (.inr ((mem_addColumns_iff rfl).2 ⟨t, old, ?_, rfl, hc, ?_⟩))
      · exact (mem_matched_default_iff hdesired.toIsNamed).2
          ⟨(mem_tables_iff hdesired.tables).1 ht, hold⟩
      · exact fun other hother hname => hfound ⟨other, hother, hname⟩
  · exact .inr (.inl ((mem_tablesToCreate_default_iff hdesired).2 ⟨ht, hexists⟩))

/-- What is desired of a table is supplied once tables are created and the columns of this one are added. -/
theorem supplies_of_addColumns {t : Table} (ht : t ∈ desired.tables.values) {statements : List Ddl}
    (hcreates : ∀ s ∈ (desired.diff live {}).tablesToCreate.flatMap (desired.diff live {}).creating,
      s ∈ statements)
    (hadds : ∀ c ∈ ((desired.diff live {}).changesOf t.name).addColumns,
      .addColumn t.name c ∈ statements) :
    ∀ o ∈ t.objects, Ddl.Supplies d live.objects statements o := by
  intro o ho
  have hcreated : t ∈ (desired.diff live {}).tablesToCreate →
      Ddl.Supplies d live.objects statements o := fun hmem => by
    obtain ⟨s, hs, hmade⟩ := SchemaDiff.exists_created_of_mem hmem ho
    exact .inr ⟨s, hcreates s hs, hmade⟩
  rcases List.mem_cons.1 ho with rfl | hcolumn
  · exact (table_mem_or_created hdesired hlive ht).elim .inl hcreated
  · obtain ⟨c, hc, rfl⟩ := List.mem_map.1 hcolumn
    rcases column_mem_or_created hdesired hlive ht hc with hexists | hmem | hadded
    · exact .inl hexists
    · exact hcreated hmem
    · exact .inr ⟨_, hadds c hadded, .head _⟩

/-- Only tables of the desired schema are changed. -/
theorem mem_keys_of_mem_changedTables {name : String}
    (h : name ∈ (desired.diff live {}).changedTables) : name ∈ desired.tables.keys := by
  have hjoined : ∀ r ∈ live.relationships.values, r.referencing.table ∈ live.tables.keys := by
    intro r hr
    obtain ⟨t, ht, hname, _⟩ := hlive.joined r hr _ (.head _)
    exact hlive.tables.mem_keys_iff.2 ⟨t, ht, hname⟩
  rcases exists_of_mem_changedTables h with ⟨new, old, hmatch, rfl⟩ | ⟨r, hr, key, hkey, rfl⟩
  · exact Assoc.mem_keys_iff.2 ⟨new, ((mem_matched_default_iff hdesired.toIsNamed).1 hmatch).1⟩
  · have hrequires := requires_of_mem rfl hr
    rcases hkey with hdropped | hadded
    · obtain ⟨hold, hkept⟩ := SchemaDiff.droppedKey?_eq_some_iff.1 hdropped
      by_contra hunwanted
      exact hkept ((mem_dropped_iff rfl hlive.tables).2
        ⟨hjoined key (hrequires.current_of_old? hold).1, rfl, hunwanted⟩)
    · have hnew := (SchemaDiff.addedKey?_eq_some_iff.1 hadded).1
      obtain ⟨t, ht, hname, _⟩ := hdesired.joined key (hrequires.desired_of_new? hnew).1 _ (.head _)
      exact hdesired.tables.mem_keys_iff.2 ⟨t, ht, hname⟩

/-! ## What is dropped in front of a column -/

/-- A live foreign key from which every desired one of its name differs is dropped by its table. -/
theorem mem_dropForeignKeys_iff {key : Relationship} (hkey : key ∈ live.relationships.values)
    (howner : key.referencing.table ∈ desired.tables.keys) :
    key ∈ ((desired.diff live {}).changesOf key.referencing.table).dropForeignKeys ↔
      ∀ new ∈ desired.relationships.values, new.name = key.name →
        Relationship.changes id key new ≠ [] := by
  have hfind : ∀ r ∈ live.relationships.values,
      (Relationship.rules id).find? id live.relationships.values r.name = some r := fun r hr =>
    ItemRules.find?_self hlive.relationships.nodup hr
  constructor
  · intro h new hnew hname
    obtain ⟨⟨r, hr, hdropped⟩, _⟩ := SchemaDiff.mem_dropForeignKeys_changesOf.1 h
    have hrequires := requires_of_mem rfl hr
    have hold := (SchemaDiff.droppedKey?_eq_some_iff.1 hdropped).1
    cases hchange : r.change with
    | create _ => cases hchange ▸ hold
    | drop _ =>
      rw [hchange] at hrequires hold
      cases hold
      exact absurd hname (ItemRules.find?_eq_none_iff.1 hrequires.2.2 new hnew)
    | alter _ wanted =>
      rw [hchange] at hrequires hold
      cases hold
      have hsame : wanted = new := by
        refine List.inj_on_of_nodup_map hdesired.relationships.nodup hrequires.1 hnew ?_
        exact (hrequires.current_of_old? rfl).2.trans hname.symm
      exact hsame ▸ hrequires.2.2.2
  · intro h
    have hdiffers : ∀ change, (Relationship.rules id).Requires id (fun _ => true)
        desired.relationships.values live.relationships.values change →
          ∃ r ∈ (desired.diff live {}).relationships, r.change = change := by
      intro change hrequires
      refine List.mem_map.1 (mem_relationships_diff.2 ⟨rfl, ?_⟩)
      rw [DiffOptions.fold_of_exact rfl]
      exact hrequires
    obtain ⟨r, hr, hold⟩ : ∃ r ∈ (desired.diff live {}).relationships,
        r.change.old? = some key := by
      cases hfound : (Relationship.rules id).find? id desired.relationships.values key.name with
      | none =>
        obtain ⟨r, hr, hchange⟩ := hdiffers (.drop key) ⟨hkey, rfl, hfound⟩
        exact ⟨r, hr, by rw [hchange]; rfl⟩
      | some new =>
        obtain ⟨hnew, hname⟩ := ItemRules.mem_of_find? hfound
        obtain ⟨r, hr, hchange⟩ := hdiffers (.alter key new)
          ⟨hnew, rfl, (congrArg _ hname).trans (hfind key hkey), h new hnew hname⟩
        exact ⟨r, hr, by rw [hchange]; rfl⟩
    refine SchemaDiff.mem_dropForeignKeys_changesOf.2 ⟨⟨r, hr, ?_⟩, rfl⟩
    refine SchemaDiff.droppedKey?_eq_some_iff.2 ⟨hold, fun hdropped => ?_⟩
    exact ((mem_dropped_iff rfl hlive.tables).1 hdropped).2.2 howner

/-- An index on a column that its table loses is dropped by the table. -/
theorem mem_dropIndexes_of_uses (hindexes : ∀ t ∈ live.tables.values, (t.indexes.map Index.name).Nodup)
    {table column : String} (hlost : column ∈ lostColumns desired live table) {i : Index}
    (hi : .index i ∈ live.objects) (huses : (SchemaObject.index i).uses table column = true) :
    i ∈ ((desired.diff live {}).changesOf table).dropIndexes := by
  obtain ⟨new, old, hnew, hold, _, _⟩ := mem_lostColumns_iff.1 hlost
  simp only [SchemaObject.uses, Bool.and_eq_true, beq_iff_eq, List.contains_iff_mem] at huses
  obtain ⟨hmem, hname⟩ : i ∈ old.indexes ∧ new.name = table := by
    obtain ⟨t, ht, hi⟩ := index_mem_objects.1 hi
    have hget := (mem_tables_iff hlive.tables).1 ht
    rw [(hlive.attached t ht i hi).symm.trans huses.1, hold] at hget
    exact ⟨Option.some.inj hget ▸ hi, hdesired.tables _ _ hnew⟩
  have hmatch : (new, old) ∈ matchedTables desired live {} :=
    (mem_matched_default_iff hdesired.toIsNamed).2 ⟨hname.symm ▸ hnew, hname.symm ▸ hold⟩
  rw [mem_dropIndexes_iff rfl rfl]
  refine ⟨new, old, hmatch, hname, ?_⟩
  cases hfound : (Index.rules id).find? id new.indexes i.name with
  | none => exact ⟨.drop i, ⟨hmem, rfl, hfound⟩, rfl⟩
  | some wanted =>
    obtain ⟨hwanted, hsame⟩ := ItemRules.mem_of_find? hfound
    refine ⟨.alter i wanted, ⟨hwanted, rfl, ?_, fun halike => ?_⟩, rfl⟩
    · refine (congrArg _ hsame).trans (ItemRules.find?_self ?_ hmem)
      exact hindexes old (Assoc.mem_values_of_get? hold)
    · -- The desired index would use the column that its table has lost.
      have hdesired' := Assoc.mem_values_of_get? hnew
      have hunused := uses_of_mem_objects hdesired hlost
        (index_mem_objects.2 ⟨new, hdesired', hwanted⟩)
      have hcolumns := (Index.changes_eq_nil_iff.1 halike).columns
      have howner := (hdesired.attached new hdesired' wanted hwanted).trans hname
      simp [SchemaObject.uses, howner, ← hcolumns, huses.2] at hunused

/-- A foreign key on a column that is lost is dropped by its table, which is that of the column or is changed
in front of it. -/
theorem dropped_of_uses (h : desired.IsSafeToApply live) {before after : List String} {table : String}
    (hsplit : (desired.diff live {}).changedTables = before ++ table :: after) {column : String}
    (hlost : column ∈ lostColumns desired live table) {key : Relationship}
    (hkey : key ∈ live.relationships.values)
    (huses : (SchemaObject.foreignKey key).uses table column = true) :
    (key.referencing.table = table ∨ key.referencing.table ∈ before) ∧
      key ∈ ((desired.diff live {}).changesOf key.referencing.table).dropForeignKeys := by
  simp only [SchemaObject.uses, List.any_cons, List.any_nil, Bool.or_false, Bool.or_eq_true,
    Bool.and_eq_true, beq_iff_eq, List.contains_iff_mem] at huses
  have hchanged : ∀ name, name = table ∨ name ∈ before → name ∈ desired.tables.keys := by
    intro name hname
    refine mem_keys_of_mem_changedTables hdesired hlive ?_
    rw [hsplit, List.mem_append, List.mem_cons]
    rcases hname with rfl | hname
    · exact .inr (.inl rfl)
    · exact .inl hname
  -- No desired foreign key refers to a column that is lost.
  have hreferenced : key.referenced.table = table → column ∈ key.referenced.columns →
      ∀ new ∈ desired.relationships.values, Relationship.changes id key new ≠ [] := by
    intro htable hcolumn new hnew hsame
    have hunused := uses_of_mem_objects hdesired hlost (foreignKey_mem_objects.2 hnew)
    simp [SchemaObject.uses, Relationship.referenced_of_changes_eq_nil hsame, htable, hcolumn]
      at hunused
  by_cases howner : key.referencing.table = table
  · refine ⟨.inl howner, (mem_dropForeignKeys_iff hdesired hlive hkey (hchanged _ (.inl howner))).2 ?_⟩
    intro new hnew hname
    rcases huses with ⟨_, hcolumn⟩ | ⟨htable, hcolumn⟩
    · exact h.owned key hkey ⟨column, hcolumn, howner.symm ▸ hlost⟩ new hnew hname
    · exact hreferenced htable hcolumn new hnew
  · obtain ⟨htable, hcolumn⟩ := huses.resolve_left fun hown => howner hown.1
    have hfront := h.released before table after hsplit key hkey htable howner ⟨column, hcolumn, hlost⟩
    exact ⟨.inr hfront, (mem_dropForeignKeys_iff hdesired hlive hkey (hchanged _ (.inr hfront))).2
      fun new hnew _ => hreferenced htable hcolumn new hnew⟩

/-! ## When every statement fits -/

section Ordered

variable (hordered : desired.IsOrdered desired.sortedTables)

include hordered

omit hlive in
/-- A created table stands behind the created tables that it refers to. -/
theorem eachAfter_tablesToCreate :
    EachAfter (fun before t => ∀ u ∈ (desired.diff live {}).tablesToCreate,
        desired.References t.name u.name → u ∈ before)
      (desired.diff live {}).tablesToCreate := by
  have hcreated : (desired.diff live {}).tablesToCreate =
      desired.sortedTables.filter fun t => (live.table? t.name).isNone && true :=
    List.filter_filter
  have hfronts : EachAfter (fun front t => (∀ u ∈ front, u ∈ desired.tables.values) ∧
      ∀ other, desired.References t.name other → other ∈ front.map (·.name)) desired.sortedTables := by
    refine (isOrdered_iff.1 hordered).mono fun front t back hsplit h => ⟨fun u hu => ?_, h⟩
    refine (desired.sortedTables_perm hdesired.tables).mem_iff.1 ?_
    rw [hsplit]
    exact List.mem_append_left _ hu
  rw [hcreated]
  refine (hfronts.filter _).mono fun before t _ _ => ?_
  rintro ⟨_, front, rfl, hfront, hmem⟩ u hu hreferences
  obtain ⟨v, hv, hname⟩ := List.mem_map.1 (hmem u.name hreferences)
  obtain ⟨hu, hkeep⟩ := List.mem_filter.1 hu
  have hsame : v = u := List.inj_on_of_nodup_map hdesired.tables.nodup (hfront v hv)
    ((desired.sortedTables_perm hdesired.tables).mem_iff.1 hu) hname
  exact List.mem_filter.2 ⟨hsame ▸ hv, hkeep⟩

/-- A table can be created where the tables that it refers to have all columns that it needs. -/
theorem fits_createTable (h : desired.IsSafeToApply live) {before after : List Table} {t : Table}
    (hsplit : (desired.diff live {}).tablesToCreate = before ++ t :: after) {statements : List Ddl}
    (hbefore : ∀ s ∈ before.flatMap (desired.diff live {}).creating, s ∈ statements)
    (hsub : ∀ s ∈ statements, s ∈ (desired.diff live {}).ddl d) :
    (Ddl.createTable ((desired.diff live {}).definitionOf t) false).Fits d
      (Ddl.run d live.objects statements) := by
  intro key hkey
  obtain ⟨hkey, _, hnew, howner⟩ := (mem_foreignKeys_definitionOf_iff rfl rfl).1 hkey
  have ht : t ∈ (desired.diff live {}).tablesToCreate := by
    rw [hsplit]
    exact List.mem_append_right _ (.head after)
  obtain ⟨hmem, hmissing⟩ := (mem_tablesToCreate_default_iff hdesired).1 ht
  refine resolves_of_desired hdesired hsub hkey fun e he u hu hname => ?_
  by_cases hself : u = t
  · exact .inl fun o ho => hself ▸ ho
  · obtain rfl : e = key.referenced := by
      rcases List.mem_pair.1 he with rfl | rfl
      · exact absurd (List.inj_on_of_nodup_map hdesired.tables.nodup hu hmem (hname.trans howner)) hself
      · rfl
    right
    rcases table_mem_or_created hdesired hlive hu with hexists | hcreated
    · obtain ⟨old, hold, hsame⟩ := table_mem_objects.1 hexists
      have hfresh : key.name ∉ live.relationships.keys := fun hmem => by
        obtain ⟨r, hr, hname⟩ := hlive.relationships.mem_keys_iff.1 hmem
        exact hnew r hr hname
      refine ⟨.inl hexists, fun column hcolumn _ => .inl ?_⟩
      have hlisted := h.created key hkey hfresh (howner ▸ hmissing) old hold (hsame.trans hname)
        column hcolumn
      exact column_mem_objects.2 ⟨old, hold, hsame, (hlive.columns old hold).mem_keys_iff.1 hlisted⟩
    · have hreferences : desired.References t.name u.name :=
        ⟨fun hsame => hself (List.inj_on_of_nodup_map hdesired.tables.nodup hu hmem hsame.symm),
          key, hkey, howner, hname.symm⟩
      have hfront := eachAfter_tablesToCreate hdesired hordered before t after hsplit u hcreated
        hreferences
      have hsupplied : ∀ o ∈ u.objects, Ddl.Supplies d live.objects statements o := fun o ho => by
        obtain ⟨s, hs, ho⟩ := SchemaDiff.exists_created_of_mem hfront ho
        exact .inr ⟨s, hbefore s hs, ho⟩
      refine ⟨hsupplied _ (.head _), fun column _ hlisted => hsupplied _ ?_⟩
      exact (Table.column_mem_objects (hdesired.columns u hu)).2 ⟨rfl, hlisted⟩

omit hordered in
/-- A column can go behind the tables in front and what its own table drops. -/
theorem fits_dropColumn (hd : d.alterForeignKeys = true) (h : desired.IsSafeToApply live)
    (hindexes : ∀ t ∈ live.tables.values, (t.indexes.map Index.name).Nodup)
    {before after : List String} {table : String}
    (hsplit : (desired.diff live {}).changedTables = before ++ table :: after) {statements : List Ddl}
    (hsub : ∀ s ∈ statements, s ∈ (desired.diff live {}).ddl d)
    (hdropKeys : ∀ changed, changed = table ∨ changed ∈ before →
      ∀ key ∈ ((desired.diff live {}).changesOf changed).dropForeignKeys, .dropForeignKey key ∈ statements)
    (hdropIndexes : ∀ i ∈ ((desired.diff live {}).changesOf table).dropIndexes,
      .dropIndex i ∈ statements)
    {c : Column} (hc : c ∈ ((desired.diff live {}).changesOf table).dropColumns) :
    (Ddl.dropColumn table c.name).Fits d (Ddl.run d live.objects statements) := by
  have hlost : c.name ∈ lostColumns desired live table :=
    (mem_lostColumns_iff_dropColumns hdesired.toIsNamed hlive.toIsNamed).2 ⟨c, hc, rfl⟩
  refine (fits_dropColumn_iff hdesired hsub hlost).2 fun o ho huses => ?_
  cases o with
  | table _ | column _ _ => cases huses
  | index i =>
    have hgone := mem_dropIndexes_of_uses hdesired hlive hindexes hlost ho huses
    exact ⟨_, hdropIndexes i hgone, by simp [Ddl.drops, SchemaObject.name]⟩
  | foreignKey key =>
    obtain ⟨howner, hgone⟩ := dropped_of_uses hdesired hlive h hsplit hlost
      (foreignKey_mem_objects.1 ho) huses
    exact ⟨_, hdropKeys _ howner key hgone, by simp [Ddl.drops, SchemaObject.name, hd]⟩

/-- A foreign key that a table adds resolves behind the new columns of the table and of those in front. -/
theorem resolves_of_mem_addForeignKeys (hlinked : desired.IsLinked) {before after : List String}
    {table : String} (hsplit : (desired.diff live {}).changedTables = before ++ table :: after)
    {statements : List Ddl} (hsub : ∀ s ∈ statements, s ∈ (desired.diff live {}).ddl d)
    (hcreates : ∀ s ∈ (desired.diff live {}).tablesToCreate.flatMap (desired.diff live {}).creating,
      s ∈ statements)
    (hadds : ∀ changed, changed = table ∨ changed ∈ before →
      ∀ c ∈ ((desired.diff live {}).changesOf changed).addColumns, .addColumn changed c ∈ statements)
    {key : Relationship} (hkey : key ∈ ((desired.diff live {}).changesOf table).addForeignKeys) :
    key.Resolves (Ddl.run d live.objects statements) := by
  obtain ⟨⟨r, hr, hadded⟩, howner⟩ := SchemaDiff.mem_addForeignKeys_changesOf.1 hkey
  have hwanted := ((requires_of_mem rfl hr).desired_of_new?
    (SchemaDiff.addedKey?_eq_some_iff.1 hadded).1).1
  rw [← List.append_nil (Ddl.run d live.objects _)]
  refine resolves_of_desired hdesired hsub hwanted fun e he u hu hend => .inr ?_
  have hsupplied : ∀ o ∈ u.objects, Ddl.Supplies d live.objects statements o := by
    refine supplies_of_addColumns hdesired hlive hu hcreates fun c hc => hadds u.name ?_ c hc
    by_cases hself : u.name = table
    · exact .inl hself
    · -- The table at the other end comes in front since its columns change.
      obtain rfl : e = key.referenced := by
        rcases List.mem_pair.1 he with rfl | rfl
        · exact absurd (hend.trans howner) hself
        · rfl
      obtain ⟨new, old, hmatch, hname, hmem, hnew⟩ := (mem_addColumns_iff rfl).1 hc
      refine .inr (eachAfter_changedTables hdesired.tables hordered hlinked before table after hsplit
        u.name ⟨Ne.symm hself, key, hwanted, howner, hend.symm⟩ ⟨.create c, ?_⟩)
      exact (exists_matched_iff_mem_columns rfl).2
        ⟨new, old, hmatch, hname, hmem, rfl, ItemRules.find?_eq_none_iff.2 hnew⟩
  refine ⟨hsupplied _ (.head _), fun column _ hlisted => hsupplied _ ?_⟩
  exact (Table.column_mem_objects (hdesired.columns u hu)).2 ⟨rfl, hlisted⟩

/-- The changes of a table can be carried out behind those of the tables in front. -/
theorem eachAfter_changesOf (hd : d.alterForeignKeys = true) (hlinked : desired.IsLinked)
    (h : desired.IsSafeToApply live)
    (hindexes : ∀ t ∈ live.tables.values, (t.indexes.map Index.name).Nodup)
    {before after : List String} {name : String}
    (hsplit : (desired.diff live {}).changedTables = before ++ name :: after) {statements : List Ddl}
    (hcreates : ∀ s ∈ (desired.diff live {}).tablesToCreate.flatMap (desired.diff live {}).creating,
      s ∈ statements)
    (hbefore : ∀ s ∈ before.flatMap ((desired.diff live {}).changing d), s ∈ statements) :
    EachAfter (fun front s => (∀ a ∈ statements ++ front, a ∈ (desired.diff live {}).ddl d) →
        s.Fits d (Ddl.run d live.objects (statements ++ front)))
      ((desired.diff live {}).changing d name) := by
  have hcreated : ∀ front : List Ddl, ∀ s ∈ (desired.diff live {}).tablesToCreate.flatMap
      (desired.diff live {}).creating, s ∈ statements ++ front :=
    fun _ s hs => List.mem_append_left _ (hcreates s hs)
  have hchanged : ∀ front : List Ddl, ∀ changed ∈ before,
      ∀ s ∈ (desired.diff live {}).changing d changed, s ∈ statements ++ front :=
    fun _ changed hmem s hs =>
      List.mem_append_left _ (hbefore s (List.mem_flatMap.2 ⟨changed, hmem, hs⟩))
  refine TableChanges.eachAfter_ddl ?dropKeys ?dropIndexes ?addColumns ?idle ?dropColumns ?addIndexes
    ?addKeys
  case dropKeys | dropIndexes | addColumns => exact fun _ _ _ _ => trivial
  case idle => exact fun _ s hs _ => hs.fits _
  case dropColumns =>
    intro front hkeys hgone c hc hsub
    refine fits_dropColumn hdesired hlive hd h hindexes hsplit hsub ?_
      (fun i hi => List.mem_append_right _ (hgone i hi)) hc
    rintro changed (rfl | hmem) key hkey
    · exact List.mem_append_right _ (hkeys key hkey)
    · exact hchanged front changed hmem _ (SchemaDiff.dropForeignKey_mem_changing hkey)
  case addIndexes =>
    intro front _ hcolumns i hi hsub
    obtain ⟨new, old, hmatch, rfl, change, hrequires, hnew⟩ := (mem_addIndexes_iff rfl rfl).1 hi
    have hmem := Assoc.mem_values_of_get? ((mem_matched_default_iff hdesired.toIsNamed).1 hmatch).1
    refine fits_createIndex hdesired hsub hmem (hrequires.desired_of_new? hnew).1 ?_
    exact supplies_of_addColumns hdesired hlive hmem (hcreated front) fun c hc =>
      List.mem_append_right _ (hcolumns c hc)
  case addKeys =>
    intro front _ hcolumns key hkey hsub _
    refine resolves_of_mem_addForeignKeys hdesired hlive hordered hlinked hsplit hsub (hcreated front)
      ?_ hkey
    rintro changed (rfl | hmem) c hc
    · exact List.mem_append_right _ (hcolumns c hc)
    · exact hchanged front changed hmem _ (SchemaDiff.addColumn_mem_changing hc)

theorem executesSafely_of_isSafeToApply (hd : d.alterForeignKeys = true) (hlinked : desired.IsLinked)
    (hindexes : ∀ t ∈ live.tables.values, (t.indexes.map Index.name).Nodup)
    (h : desired.IsSafeToApply live) :
    Ddl.ExecutesSafely d live.objects ((desired.diff live {}).ddl d) := by
  refine EachAfter.of_within (EachAfter.append_iff.2
    ⟨EachAfter.flatMap_iff.2 fun before t after hsplit => ?_,
      EachAfter.flatMap_iff.2 fun before name after hsplit => ?_⟩)
  · refine EachAfter.cons_iff.2 ⟨fun hsub => ?_, EachAfter.map_iff.2 fun front i rest hi hsub => ?_⟩
    · exact fits_createTable hdesired hlive hordered h hsplit
        (fun s hs => List.mem_append_left _ hs) hsub
    · have hmem : t ∈ (desired.diff live {}).tablesToCreate := by
        rw [hsplit]
        exact List.mem_append_right _ (.head after)
      have ht := ((mem_tablesToCreate_default_iff hdesired).1 hmem).1
      have hindex : i ∈ t.indexes := by
        change t.indexes = front ++ i :: rest at hi
        rw [hi]
        exact List.mem_append_right _ (.head rest)
      refine fits_createIndex hdesired hsub ht hindex fun o ho => .inr ?_
      exact ⟨_, List.mem_append_right _ (.head _), List.mem_append_left _ ho⟩
  · have hparts := eachAfter_changesOf hdesired hlive hordered hd hlinked h hindexes hsplit
      (fun s hs => List.mem_append_left _ hs) fun s hs => List.mem_append_right _ hs
    refine hparts.mono fun front s _ _ hfits hsub => ?_
    rw [← List.append_assoc] at hsub ⊢
    exact hfits hsub

end Ordered

/-- Where a column goes safely, all that uses it has been dropped by the tables that are changed by then. -/
theorem exists_drops_of_executesSafely
    (h : Ddl.ExecutesSafely d live.objects ((desired.diff live {}).ddl d)) {before after : List String}
    {table : String} (hsplit : (desired.diff live {}).changedTables = before ++ table :: after)
    {column : String} (hlost : column ∈ lostColumns desired live table) {o : SchemaObject}
    (ho : o ∈ live.objects) (huses : o.uses table column = true) :
    ∃ changed, (changed ∈ before ∨ changed = table) ∧
      ∃ s ∈ (desired.diff live {}).changing d changed, s.drops d o.name = true := by
  obtain ⟨c, hc, rfl⟩ :=
    (mem_lostColumns_iff_dropColumns hdesired.toIsNamed hlive.toIsNamed).1 hlost
  obtain ⟨front, rest, hpart⟩ := List.append_of_mem (SchemaDiff.dropColumn_mem_changing (d := d) hc)
  obtain ⟨hsub, hfits⟩ :=
    EachAfter.flatMap_iff.1 (EachAfter.append_iff.1 h.within).2 before table after hsplit front _ rest hpart
  obtain ⟨s, hs, hdrops⟩ := (fits_dropColumn_iff hdesired hsub hlost).1 hfits o ho huses
  rcases List.mem_append.1 hs with hs | hs
  · obtain ⟨_, _, hs⟩ := List.mem_flatMap.1 hs
    rw [TableDefinition.drops_of_mem_statements s hs] at hdrops
    cases hdrops
  · rcases List.mem_append.1 hs with hs | hs
    · obtain ⟨name, hname, hs⟩ := List.mem_flatMap.1 hs
      exact ⟨name, .inl hname, s, hs, hdrops⟩
    · exact ⟨table, .inr rfl, s, hpart ▸ List.mem_append_left _ hs, hdrops⟩

omit hdesired in
/-- A live foreign key is dropped by its own table. -/
theorem mem_dropForeignKeys_of_drops {table : String} {s : Ddl}
    (hs : s ∈ (desired.diff live {}).changing d table) {key : Relationship}
    (hkey : key ∈ live.relationships.values)
    (hdrops : s.drops d (SchemaObject.foreignKey key).name = true) :
    key.referencing.table = table ∧
      key ∈ ((desired.diff live {}).changesOf key.referencing.table).dropForeignKeys := by
  rcases TableChanges.drops_ddl_iff.1 ⟨s, hs, hdrops⟩ with ⟨_, old, hgone, hname⟩ | ⟨_, _, hname⟩ |
    ⟨_, _, hname⟩
  · obtain ⟨⟨r, hr, hdropped⟩, rfl⟩ := SchemaDiff.mem_dropForeignKeys_changesOf.1 hgone
    obtain ⟨htable, hsame⟩ := ObjectName.foreignKey.inj hname
    have hold := ((requires_of_mem rfl hr).current_of_old?
      (SchemaDiff.droppedKey?_eq_some_iff.1 hdropped).1).1
    obtain rfl := List.inj_on_of_nodup_map hlive.relationships.nodup hkey hold hsame
    exact ⟨rfl, hgone⟩
  · cases hname
  · cases hname

omit hlive in
/-- A column of a table that is not created was there before tables are created. -/
theorem column_mem_objects_of_mem_run {table column : String} {tables : List Table}
    (htables : ∀ u ∈ tables, u ∈ desired.tables.values ∧ u.name ≠ table)
    (h : .column table column ∈
      Ddl.run d live.objects (tables.flatMap (desired.diff live {}).creating)) :
    .column table column ∈ live.objects := by
  have hplain : ∀ s ∈ tables.flatMap (desired.diff live {}).creating, s.isPlain = true := fun s hs => by
    obtain ⟨_, _, hs⟩ := List.mem_flatMap.1 hs
    exact TableDefinition.isPlain_of_mem_statements s hs
  rcases Ddl.mem_or_created_of_mem_run hplain h with ⟨hexists, _⟩ | ⟨s, hs, hmade⟩
  · exact hexists
  · obtain ⟨u, hu, hs⟩ := List.mem_flatMap.1 hs
    obtain ⟨hmem, hother⟩ := htables u hu
    rcases TableDefinition.mem_created_statements_iff.1 ⟨s, hs, hmade⟩ with hmade | ⟨_, _, hmade⟩ |
      ⟨_, _, hmade⟩
    · exact absurd ((Table.column_mem_objects (hdesired.columns u hmem)).1 hmade).1.symm hother
    · cases hmade
    · cases hmade

/-- Where a table is created safely, the columns that it refers to in an existing table were there. -/
theorem mem_keys_of_executesSafely
    (h : Ddl.ExecutesSafely d live.objects ((desired.diff live {}).ddl d)) {r : Relationship}
    (hr : r ∈ desired.relationships.values) (hfresh : r.name ∉ live.relationships.keys)
    (howner : r.referencing.table ∉ live.tables.keys) {old : Table} (hold : old ∈ live.tables.values)
    (hname : old.name = r.referenced.table) :
    ∀ column ∈ r.referenced.columns, column ∈ old.columns.keys := by
  obtain ⟨t, ht, hend, _⟩ := hdesired.joined r hr _ (.head _)
  have hcreated : t ∈ (desired.diff live {}).tablesToCreate :=
    (mem_tablesToCreate_default_iff hdesired).2 ⟨ht, hend ▸ howner⟩
  have hkey : r ∈ ((desired.diff live {}).definitionOf t).foreignKeys := by
    refine (mem_foreignKeys_definitionOf_iff rfl rfl).2 ⟨hr, rfl, fun other hother hsame => ?_, hend.symm⟩
    exact hfresh (hlive.relationships.mem_keys_iff.2 ⟨other, hother, hsame⟩)
  have hothers : ∀ u ∈ (desired.diff live {}).tablesToCreate,
      u ∈ desired.tables.values ∧ u.name ≠ r.referenced.table := fun u hu => by
    obtain ⟨hmem, hgone⟩ := (mem_tablesToCreate_default_iff hdesired).1 hu
    exact ⟨hmem, fun hsame => hgone (hlive.tables.mem_keys_iff.2 ⟨old, hold, hname.trans hsame.symm⟩)⟩
  obtain ⟨before, after, hsplit⟩ := List.append_of_mem hcreated
  have hfits := EachAfter.flatMap_iff.1 (EachAfter.append_iff.1 h).1 before t after hsplit []
    (.createTable ((desired.diff live {}).definitionOf t) false) _ rfl
  simp only [List.append_nil] at hfits
  intro column hcolumn
  have hfound := (hfits r hkey r.referenced (.tail _ (.head _))).2 column hcolumn
  rcases List.mem_append.1 hfound with hfound | hown
  · have hbefore : ∀ u ∈ before, u ∈ desired.tables.values ∧ u.name ≠ r.referenced.table := fun u hu =>
      hothers u (hsplit ▸ List.mem_append_left _ hu)
    obtain ⟨u, hu, hsame, hlisted⟩ :=
      column_mem_objects.1 (column_mem_objects_of_mem_run hdesired hbefore hfound)
    obtain rfl := List.inj_on_of_nodup_map hlive.tables.nodup hu hold (hsame.trans hname.symm)
    exact (hlive.columns u hu).mem_keys_iff.2 hlisted
  · have hself := ((Table.column_mem_objects (hdesired.columns t ht)).1 hown).1
    exact absurd hself.symm (hothers t hcreated).2

/-- Where a column goes safely, the tables of the foreign keys on it have dropped them by then. -/
theorem dropped_of_executesSafely
    (h : Ddl.ExecutesSafely d live.objects ((desired.diff live {}).ddl d)) {before after : List String}
    {table : String} (hsplit : (desired.diff live {}).changedTables = before ++ table :: after)
    {column : String} (hlost : column ∈ lostColumns desired live table) {r : Relationship}
    (hr : r ∈ live.relationships.values) (huses : (SchemaObject.foreignKey r).uses table column = true) :
    (r.referencing.table ∈ before ∨ r.referencing.table = table) ∧
      r ∈ ((desired.diff live {}).changesOf r.referencing.table).dropForeignKeys := by
  obtain ⟨changed, hchanged, s, hs, hdrops⟩ := exists_drops_of_executesSafely hdesired hlive h hsplit
    hlost (foreignKey_mem_objects.2 hr) huses
  obtain ⟨rfl, hgone⟩ := mem_dropForeignKeys_of_drops hlive hs hr hdrops
  exact ⟨hchanged, hgone⟩

theorem isSafeToApply_of_executesSafely
    (h : Ddl.ExecutesSafely d live.objects ((desired.diff live {}).ddl d)) :
    desired.IsSafeToApply live where
  created r hr hfresh howner old hold hname :=
    mem_keys_of_executesSafely hdesired hlive h hr hfresh howner hold hname
  released := by
    rintro before table after hsplit r hr hreferenced howner ⟨column, hcolumn, hlost⟩
    have huses : (SchemaObject.foreignKey r).uses table column = true := by
      simp [SchemaObject.uses, hreferenced, hcolumn]
    exact (dropped_of_executesSafely hdesired hlive h hsplit hlost hr huses).1.resolve_right howner
  owned := by
    rintro r hr ⟨column, hcolumn, hlost⟩
    obtain ⟨c, hc, _⟩ :=
      (mem_lostColumns_iff_dropColumns hdesired.toIsNamed hlive.toIsNamed).1 hlost
    obtain ⟨new, old, hmatch, hname, hmem, hgone⟩ := (mem_dropColumns_iff rfl).1 hc
    have hdrop : .drop c ∈ SchemaDiff.ofTable r.referencing.table (desired.diff live {}).columns :=
      (exists_matched_iff_mem_columns rfl).2
        ⟨new, old, hmatch, hname, hmem, rfl, ItemRules.find?_eq_none_iff.2 hgone⟩
    obtain ⟨before, after, hsplit⟩ :=
      List.append_of_mem (SchemaDiff.mem_changedTables_of_mem_ofTable hdrop)
    have huses : (SchemaObject.foreignKey r).uses r.referencing.table column = true := by
      simp [SchemaObject.uses, hcolumn]
    have hdropped := (dropped_of_executesSafely hdesired hlive h hsplit hlost hr huses).2
    have hkept : r.referencing.table ∈ desired.tables.keys :=
      Assoc.mem_keys_iff.2 ⟨new, hname ▸ ((mem_matched_default_iff hdesired.toIsNamed).1 hmatch).1⟩
    exact (mem_dropForeignKeys_iff hdesired hlive hr hkept).1 hdropped

end Intact

/-- Without cycles of foreign keys the statements between two schemas execute safely exactly if columns of
one table and foreign keys of another one do not get in each other's way. -/
theorem executesSafely_iff (hd : d.alterForeignKeys = true) (hdesired : desired.IsIntact)
    (hlinked : desired.IsLinked) (hacyclic : desired.IsAcyclic) (hlive : live.IsIntact)
    (hindexes : ∀ t ∈ live.tables.values, (t.indexes.map Index.name).Nodup) :
    ∃ statements, TableDiff.allStatements d (desired.diff live {}).tableDiffs = .ok statements ∧
      (Ddl.ExecutesSafely d live.objects statements ↔ desired.IsSafeToApply live) := by
  have hordered : desired.IsOrdered desired.sortedTables :=
    (isOrdered_sortedTables_iff hdesired.tables hdesired.relationships hlinked).2 hacyclic
  exact ⟨_, SchemaDiff.allStatements_tableDiffs hd _, isSafeToApply_of_executesSafely hdesired hlive,
    executesSafely_of_isSafeToApply hdesired hlive hordered hd hlinked hindexes⟩

/-- An entity of integers besides its id. -/
private def integers (name : String) (fields : List (String × Option FieldReference)) : Entity :=
  { name
    fields := Assoc.ofPairs (("id", { type := .integer }) :: fields.map fun (key, reference?) =>
      (key, { type := .integer, reference? })) }

/-- The author of posts goes with its foreign key, and behind it the code of users that it refers to. -/
theorem executesSafely_iff_released :
    let code : FieldReference := { entity := "User", field? := some "code" }
    let before := [integers "Post" [("author", some code)], integers "User" [("code", none)]]
    let behind := [integers "Post" [], integers "User" []]
    ∃ desired live, (Registry.ofList behind).schema = .ok desired ∧
      (Registry.ofList before).schema = .ok live ∧
      desired.IsIntact ∧ desired.IsLinked ∧ desired.IsAcyclic ∧ live.IsIntact ∧
      (∀ t ∈ live.tables.values, (t.indexes.map Index.name).Nodup) ∧
      ∃ statements,
        TableDiff.allStatements .postgres (desired.diff live {}).tableDiffs = .ok statements ∧
        .dropColumn "User" "code" ∈ (desired.diff live {}).ddl .postgres ∧
        Ddl.ExecutesSafely .postgres live.objects statements := by
  intro code before behind
  obtain ⟨desired, hwanted⟩ : ∃ desired, (Registry.ofList behind).schema = .ok desired := ⟨_, rfl⟩
  obtain ⟨live, hbuilt⟩ : ∃ live, (Registry.ofList before).schema = .ok live := ⟨_, rfl⟩
  have hdesired : desired.IsIntact := by cases hwanted; decide +kernel
  have hlinked : desired.IsLinked := by cases hwanted; decide +kernel
  have hacyclic : desired.IsAcyclic := by
    refine (isOrdered_sortedTables_iff hdesired.tables hdesired.relationships hlinked).1 ?_
    cases hwanted
    decide +kernel
  have hlive : live.IsIntact := by cases hbuilt; decide +kernel
  have hindexes : ∀ t ∈ live.tables.values, (t.indexes.map Index.name).Nodup := by
    cases hbuilt
    decide +kernel
  obtain ⟨statements, hstatements, hsafe⟩ :=
    executesSafely_iff (d := .postgres) rfl hdesired hlinked hacyclic hlive hindexes
  refine ⟨desired, live, hwanted, hbuilt, hdesired, hlinked, hacyclic, hlive, hindexes, statements,
    hstatements, ?_, hsafe.2 ?_⟩ <;>
  · cases hwanted
    cases hbuilt
    decide +kernel

/-- Posts that refer to the code of users are created while users have no code yet. -/
theorem executes_before_column :
    let user (fields : List String) := integers "User" (fields.map fun key => (key, none))
    let post := integers "Post" [("author", some { entity := "User", field? := some "code" })]
    ∃ desired live, (Registry.ofList [user ["code"], post]).schema = .ok desired ∧
      (Registry.ofList [user []]).schema = .ok live ∧ desired.IsIntact ∧ desired.IsAcyclic ∧
      live.IsIntact ∧
      ∃ statements,
        TableDiff.allStatements .postgres (desired.diff live {}).tableDiffs = .ok statements ∧
        ¬Ddl.ExecutesSafely .postgres live.objects statements := by
  intro user post
  obtain ⟨desired, hwanted⟩ : ∃ desired, (Registry.ofList [user ["code"], post]).schema = .ok desired :=
    ⟨_, rfl⟩
  obtain ⟨live, hbuilt⟩ : ∃ live, (Registry.ofList [user []]).schema = .ok live := ⟨_, rfl⟩
  have hdesired : desired.IsIntact := by cases hwanted; decide +kernel
  have hlinked : desired.IsLinked := by cases hwanted; decide +kernel
  refine ⟨desired, live, hwanted, hbuilt, hdesired, ?_, ?_, _,
    SchemaDiff.allStatements_tableDiffs rfl _, ?_⟩
  · refine (isOrdered_sortedTables_iff hdesired.tables hdesired.relationships hlinked).1 ?_
    cases hwanted
    decide +kernel
  · cases hbuilt
    decide +kernel
  · cases hwanted
    cases hbuilt
    decide +kernel

end EntitySql.Schema
