import EntitySql.Proofs.Schema.FromRegistry
/-!
# Foreign keys under their names

The schema of a registry holds one foreign key under each name. It is the first one that is declared under
that name, where the entities are gone through in order and the fields of an entity come before its relations;
and where it says nothing about deletes, they cascade if some cascading relation calls for a key of that name
(`Registry.get?_relationships_schemaBy`). Which columns hold the key behind a cascading relation is what
`Member.Cascades` says.
-/

namespace EntitySql

theorem SchemaError.ofQuery_eq_ok_iff {α : Type} {x : Except QueryError α} {a : α} :
    SchemaError.ofQuery x = .ok a ↔ x = .ok a := by
  cases x <;> simp [SchemaError.ofQuery]

/-- The foreign key whose deletes cascade, unless it says what they do. -/
def Relationship.cascading (key : Relationship) : Relationship :=
  { key with onDelete? := key.onDelete?.or (some .cascade) }

@[simp]
theorem Relationship.cascading_cascading (key : Relationship) : key.cascading.cascading = key.cascading := by
  simp [cascading]

/-! ## Declared keys -/

namespace Member

/-- The foreign keys of the fields. -/
def fieldKeys (m : Member) (naming : Naming) : List Relationship :=
  m.entity.fields.entries.filterMap fun entry => entry.2.reference?.bind fun reference =>
    (m.fieldKey naming entry.1 reference).toOption

/-- The foreign keys of the relations whose key columns the entity holds. -/
def relationKeys (m : Member) (naming : Naming) : List Relationship :=
  (m.entity.relations.values.filter m.ownsKey).filterMap fun r => (m.relationKey naming r).toOption

/-- The foreign keys that an entity declares, whatever they are called. -/
def declaredKeys (m : Member) (naming : Naming) : List Relationship :=
  m.fieldKeys naming ++ m.relationKeys naming

/-- The side that holds the key behind a cascading relation: the related entity of a one-to-many relation
and of a one-to-one relation from the id, and the junction of a many-to-many relation. -/
inductive Cascades (m : Member) (naming : Naming) : Endpoint → Prop
  | children {r : Relation} {holder : Member} : r ∈ m.entity.relations.values → r.cascade = true →
      r.cardinality = .oneToMany → r.through? = none → r.keyPairs ≠ [] →
      m.registry.member r.entity = .ok holder →
      m.Cascades naming {
        table := holder.tableNameBy naming
        columns := r.keyPairs.map fun pair => holder.columnNameBy naming pair.far }
  | counterpart {r : Relation} {holder : Member} : r ∈ m.entity.relations.values → r.cascade = true →
      r.cardinality = .oneToOne → r.through? = none → r.keyPairs ≠ [] →
      (∀ pair ∈ r.keyPairs, pair.near = m.entity.id) →
      m.registry.member r.entity = .ok holder →
      m.Cascades naming {
        table := holder.tableNameBy naming
        columns := r.keyPairs.map fun pair => holder.columnNameBy naming pair.far }
  | junction {r : Relation} {holder : Member} {name : String} {pair : KeyPair} {pairs : List KeyPair} :
      r ∈ m.entity.relations.values → r.cascade = true →
      r.cardinality = .manyToMany → r.through? = some name → r.keyPairs = pair :: pairs →
      m.registry.member name = .ok holder →
      m.Cascades naming {
        table := holder.tableNameBy naming, columns := [holder.columnNameBy naming pair.near] }

end Member

/-- The name of a foreign key of these columns. -/
def Endpoint.keyName (e : Endpoint) : String := Schema.foreignKeyName e.table e.columns

namespace Registry

/-- The foreign keys that the entities declare, in order. -/
def declaredKeys (r : Registry) (naming : Naming) : List Relationship :=
  r.members.flatMap (·.declaredKeys naming)

/-- The first foreign key that is declared under the name. -/
def keyNamed? (r : Registry) (naming : Naming) (name : String) : Option Relationship :=
  (r.declaredKeys naming).find? (·.name == name)

/-- The names of the foreign keys that cascading relations call for. -/
def cascadedNames (r : Registry) (naming : Naming) : List String :=
  r.members.flatMap fun m => (m.cascadedKeys naming).toOption.getD []

/-- The foreign key with what cascading relations add to it. -/
def withCascade (r : Registry) (naming : Naming) (key : Relationship) : Relationship :=
  if key.name ∈ r.cascadedNames naming then key.cascading else key

end Registry

namespace Member

variable {m : Member} {naming : Naming} {keys : List Relationship}

/-- Keys whose names are taken are never found. -/
theorem find?_foldl_missing (name : String) (more keys : List Relationship) :
    (more.foldl (fun keys r => if keys.any (·.name == r.name) then keys else keys ++ [r]) keys).find?
        (·.name == name) =
      (keys ++ more).find? (·.name == name) := by
  induction more generalizing keys with
  | nil => simp
  | cons r rest ih =>
    rw [List.foldl_cons, ih]
    split
    · rename_i htaken
      obtain ⟨other, hother, hname⟩ := List.any_eq_true.1 htaken
      rw [List.find?_append, List.find?_append, List.find?_cons]
      by_cases hr : r.name = name
      · have hfound : (keys.find? (·.name == name)).isSome := by
          rw [List.find?_isSome]
          exact ⟨other, hother, hr ▸ hname⟩
        obtain ⟨found, hfound⟩ := Option.isSome_iff_exists.1 hfound
        rw [hfound, Option.some_or, Option.some_or]
      · rw [beq_eq_false_iff_ne.2 hr]
    · rw [List.append_assoc, List.singleton_append]

/-- Under each name an entity has the first key that it declares. -/
theorem find?_foreignKeys (h : m.foreignKeys naming = .ok keys) (name : String) :
    keys.find? (·.name == name) = (m.declaredKeys naming).find? (·.name == name) := by
  obtain ⟨ofFields, hfields, h⟩ := ok_of_bind_eq_ok h
  obtain ⟨ofRelations, hrelations, h⟩ := ok_of_bind_eq_ok h
  cases h
  have hfields : m.fieldKeys naming = ofFields := by
    rw [← filterMap_toOption_of_mapM_eq_ok hfields, List.filterMap_filterMap]
    refine List.filterMap_congr fun entry _ => ?_
    dsimp only
    cases entry.2.reference? <;> rfl
  rw [find?_foldl_missing, declaredKeys, hfields, relationKeys,
    ← filterMap_toOption_of_mapM_eq_ok hrelations]

/-- Where an entity has foreign keys, all that its fields refer to exists. -/
theorem exists_fieldKey (h : m.foreignKeys naming = .ok keys) {entry : String × Field}
    (hentry : entry ∈ m.entity.fields.entries) {reference : FieldReference}
    (hreference : entry.2.reference? = some reference) :
    ∃ key, m.fieldKey naming entry.1 reference = .ok key := by
  obtain ⟨ofFields, hfields, -⟩ := ok_of_bind_eq_ok h
  refine ok_of_mapM_eq_ok (a := (entry.1, reference)) hfields (List.mem_filterMap.2 ⟨entry, hentry, ?_⟩)
  exact Option.map_eq_some_iff.2 ⟨reference, hreference, rfl⟩

variable {key : Relationship}

theorem mem_fieldKeys_iff :
    key ∈ m.fieldKeys naming ↔ ∃ entry ∈ m.entity.fields.entries, ∃ reference,
      entry.2.reference? = some reference ∧ m.fieldKey naming entry.1 reference = .ok key := by
  simp only [fieldKeys, List.mem_filterMap, Option.bind_eq_some_iff, toOption_eq_some_iff]

theorem mem_relationKeys_iff :
    key ∈ m.relationKeys naming ↔ ∃ r ∈ m.entity.relations.values, m.ownsKey r = true ∧
      m.relationKey naming r = .ok key := by
  simp only [relationKeys, List.mem_filterMap, List.mem_filter, and_assoc, toOption_eq_some_iff]

/-- What holds of the keys of fields and of relations holds of all that are declared. -/
theorem forall_mem_declaredKeys {P : Relationship → Prop}
    (hfield : ∀ entry reference, Ensures P (m.fieldKey naming entry reference))
    (hrelation : ∀ r, Ensures P (m.relationKey naming r)) : ∀ key ∈ m.declaredKeys naming, P key := by
  refine List.forall_mem_append.2 ⟨fun key h => ?_, fun key h => ?_⟩
  · obtain ⟨_, _, _, _, hkey⟩ := mem_fieldKeys_iff.1 h
    exact hfield _ _ key hkey
  · obtain ⟨_, _, _, hkey⟩ := mem_relationKeys_iff.1 h
    exact hrelation _ key hkey

/-- A declared key goes from the table of its entity. -/
theorem table_of_mem_declaredKeys :
    ∀ key ∈ m.declaredKeys naming, key.referencing.table = m.tableNameBy naming :=
  forall_mem_declaredKeys (fun _ _ => .bind_any fun _ => .pure rfl) fun _ => .bind_any fun _ => .pure rfl

/-- A declared key is named for the columns that hold it. -/
theorem name_of_mem_declaredKeys :
    ∀ key ∈ m.declaredKeys naming, key.name = key.referencing.keyName :=
  forall_mem_declaredKeys (fun _ _ => .bind_any fun _ => .pure rfl) fun _ => .bind_any fun _ => .pure rfl

/-! ## Cascading relations -/

theorem keyHolder?_eq_some_iff {r : Relation} {name : String} {keys : List String} :
    m.keyHolder? r = some (name, keys) ↔
      (r.cardinality = .oneToMany ∧ r.through? = none ∨
          r.cardinality = .oneToOne ∧ r.through? = none ∧
            ∀ pair ∈ r.keyPairs, pair.near = m.entity.id) ∧
        r.entity = name ∧ r.keyPairs.map (·.far) = keys ∨
      r.cardinality = .manyToMany ∧ r.through? = some name ∧
        ∃ pair pairs, r.keyPairs = pair :: pairs ∧ [pair.near] = keys := by
  unfold keyHolder?
  cases hthrough : r.through? <;> cases hcardinality : r.cardinality <;> cases hpairs : r.keyPairs <;>
    simp

/-- The sides that hold keys behind cascading relations are those that the relations say. -/
theorem cascades_iff {e : Endpoint} :
    m.Cascades naming e ↔ ∃ r ∈ m.entity.relations.values, r.cascade = true ∧ ∃ name keys,
      m.keyHolder? r = some (name, keys) ∧ keys ≠ [] ∧ ∃ holder, m.registry.member name = .ok holder ∧
        e = { table := holder.tableNameBy naming, columns := keys.map (holder.columnNameBy naming) } := by
  constructor
  · intro h
    cases h with
    | children hr hcascade hmany hdirect hpairs hholder =>
      refine ⟨_, hr, hcascade, _, _, keyHolder?_eq_some_iff.2 (.inl ⟨.inl ⟨hmany, hdirect⟩, rfl, rfl⟩), ?_⟩
      exact ⟨mt List.map_eq_nil_iff.1 hpairs, _, hholder, by simp⟩
    | counterpart hr hcascade hone hdirect hpairs hnear hholder =>
      refine ⟨_, hr, hcascade, _, _,
        keyHolder?_eq_some_iff.2 (.inl ⟨.inr ⟨hone, hdirect, hnear⟩, rfl, rfl⟩), ?_⟩
      exact ⟨mt List.map_eq_nil_iff.1 hpairs, _, hholder, by simp⟩
    | junction hr hcascade hmany hthrough hpairs hholder =>
      refine ⟨_, hr, hcascade, _, _,
        keyHolder?_eq_some_iff.2 (.inr ⟨hmany, hthrough, _, _, hpairs, rfl⟩), ?_⟩
      exact ⟨List.cons_ne_nil _ _, _, hholder, rfl⟩
  · rintro ⟨r, hr, hcascade, name, keys, hkeys, hne, holder, hholder, rfl⟩
    rcases keyHolder?_eq_some_iff.1 hkeys with ⟨hshape, rfl, rfl⟩ | ⟨hmany, hthrough, pair, pairs, hpairs, rfl⟩
    · have hpairs : r.keyPairs ≠ [] := mt List.map_eq_nil_iff.2 hne
      rw [List.map_map]
      rcases hshape with ⟨hmany, hdirect⟩ | ⟨hone, hdirect, hnear⟩
      · exact .children hr hcascade hmany hdirect hpairs hholder
      · exact .counterpart hr hcascade hone hdirect hpairs hnear hholder
    · exact .junction hr hcascade hmany hthrough hpairs hholder

/-- The sides that hold keys behind cascading relations, in order. -/
def cascadedEnds (m : Member) (naming : Naming) : List Endpoint :=
  (m.entity.relations.values.filter (·.cascade)).filterMap fun r =>
    (m.keyHolder? r).bind fun (name, keys) => (m.registry.member name).toOption.bind fun holder =>
      if keys = [] then none
      else some { table := holder.tableNameBy naming, columns := keys.map (holder.columnNameBy naming) }

theorem mem_cascadedEnds_iff {e : Endpoint} : e ∈ m.cascadedEnds naming ↔ m.Cascades naming e := by
  simp only [cascadedEnds, List.mem_filterMap, List.mem_filter, Option.bind_eq_some_iff, Prod.exists,
    toOption_eq_some_iff, cascades_iff, and_assoc]
  refine exists_congr fun r => and_congr_right fun _ => and_congr_right fun _ => exists_congr fun name =>
    exists_congr fun keys => and_congr_right fun _ => ?_
  constructor
  · rintro ⟨holder, hholder, hsome⟩
    split at hsome
    · cases hsome
    · exact ⟨‹_›, holder, hholder, (Option.some.inj hsome).symm⟩
  · rintro ⟨hne, holder, hholder, rfl⟩
    exact ⟨holder, hholder, if_neg hne⟩

instance (e : Endpoint) : Decidable (m.Cascades naming e) := decidable_of_iff _ mem_cascadedEnds_iff

/-- The names that cascading relations call for are those of the keys behind them. -/
theorem mem_cascadedKeys_iff {names : List String} (h : m.cascadedKeys naming = .ok names)
    {name : String} : name ∈ names ↔ ∃ e, m.Cascades naming e ∧ e.keyName = name := by
  obtain ⟨found, hfound, h⟩ := ok_of_bind_eq_ok h
  cases h
  rw [← filterMap_toOption_of_mapM_eq_ok hfound]
  simp only [List.mem_filterMap, List.mem_filter, id, toOption_eq_some_iff, Prod.exists, cascades_iff]
  constructor
  · rintro ⟨_, ⟨holderName, keys, ⟨r, ⟨hr, hcascade⟩, hkeys⟩, hnamed⟩, rfl⟩
    obtain ⟨holder, hholder, hnamed⟩ := ok_of_bind_eq_ok hnamed
    by_cases hempty : keys = []
    · subst hempty
      cases hnamed
    · have hnonempty : keys.isEmpty = false := by simpa using hempty
      rw [hnonempty] at hnamed
      cases hnamed
      exact ⟨_, ⟨r, hr, hcascade, holderName, keys, hkeys, hempty, holder, hholder, rfl⟩, rfl⟩
  · rintro ⟨_, ⟨r, hr, hcascade, holderName, keys, hkeys, hne, holder, hholder, rfl⟩, rfl⟩
    have hnonempty : keys.isEmpty = false := by simpa using hne
    refine ⟨_, ⟨holderName, keys, ⟨r, ⟨hr, hcascade⟩, hkeys⟩, ?_⟩, rfl⟩
    simp only [hholder, hnonempty]
    rfl

end Member

namespace Schema

variable {s s' : Schema}

theorem get?_relationships_addMissing {keys : List Relationship} (h : s.addMissing keys = .ok s')
    (name : String) :
    s'.relationships.get? name =
      (s.relationships.get? name).or (keys.find? (·.name == name)) := by
  induction keys generalizing s with
  | nil =>
    cases h
    exact (Option.or_none).symm
  | cons key rest ih =>
    obtain ⟨next, hnext, hrest⟩ := ok_of_bind_eq_ok h
    rw [ih hrest, List.find?_cons]
    dsimp only at hnext
    split at hnext
    · rename_i htaken
      cases hnext
      by_cases hkey : key.name = name
      · obtain ⟨old, hold⟩ := Assoc.mem_keys_iff.1 (Assoc.contains_iff.1 htaken)
        rw [← hkey, hold, Option.some_or, Option.some_or]
      · rw [beq_eq_false_iff_ne.2 hkey]
    · rename_i hfree
      obtain ⟨_, _, rfl⟩ := addRelationship_eq_ok_iff.1 hnext
      rw [addForeignKey, Assoc.get?_insert]
      by_cases hkey : key.name = name
      · have hnone : s.relationships.get? name = none := by
          rw [Assoc.get?_eq_none_iff, ← hkey]
          simpa using hfree
        rw [if_pos hkey.symm, hnone, beq_iff_eq.2 hkey, Option.some_or, Option.none_or]
      · rw [if_neg (Ne.symm hkey), beq_eq_false_iff_ne.2 hkey]

theorem get?_relationships_cascade (name other : String) :
    (s.cascade name).relationships.get? other =
      (s.relationships.get? other).map fun key => if other = name then key.cascading else key := by
  rw [cascade, Assoc.get?_modify]
  split <;> simp [Relationship.cascading]

theorem get?_relationships_foldl_cascade (names : List String) (name : String) :
    (names.foldl cascade s).relationships.get? name =
      (s.relationships.get? name).map fun key => if name ∈ names then key.cascading else key := by
  induction names generalizing s with
  | nil => simp
  | cons first rest ih =>
    rw [List.foldl_cons, ih, get?_relationships_cascade, Option.map_map]
    refine congrArg (Option.map · _) (funext fun key => ?_)
    by_cases hfirst : name = first <;> by_cases hrest : name ∈ rest <;> simp_all

end Schema

namespace Registry

variable {r : Registry} {naming : Naming} {s : Schema}

theorem mem_members_iff {m : Member} : m ∈ r.members ↔ m.registry = r ∧ m.entity ∈ r.entities.values := by
  cases m
  simp [members, eq_comm, and_comm]

theorem member_eq_ok_iff {name : String} {m : Member} :
    r.member name = .ok m ↔ m.registry = r ∧ r.entities.get? name = some m.entity := by
  cases m
  unfold member
  split <;> simp [*, eq_comm]

/-- Where the registry has a schema, every entity has foreign keys and all that cascade are known. -/
theorem exists_keys_of_schemaBy (h : r.schemaBy naming = .ok s) {m : Member} (hm : m ∈ r.members) :
    (∃ keys, m.foreignKeys naming = .ok keys) ∧ ∃ names, m.cascadedKeys naming = .ok names := by
  obtain ⟨linked, hlinked, hcascaded⟩ := ok_of_bind_eq_ok h
  obtain ⟨_, _, hkeys⟩ := exists_step_of_foldlM_eq_ok hlinked hm
  obtain ⟨_, _, hnames⟩ := exists_step_of_foldlM_eq_ok hcascaded hm
  obtain ⟨keys, hkeys, -⟩ := ok_of_bind_eq_ok hkeys
  obtain ⟨names, hnames, -⟩ := ok_of_bind_eq_ok hnames
  exact ⟨⟨keys, SchemaError.ofQuery_eq_ok_iff.1 hkeys⟩, names, SchemaError.ofQuery_eq_ok_iff.1 hnames⟩

theorem get?_relationships_linked {members : List Member} {s s' : Schema}
    (h : members.foldlM
      (fun s m => do s.addMissing (← SchemaError.ofQuery (m.foreignKeys naming))) s = .ok s')
    (name : String) :
    s'.relationships.get? name = (s.relationships.get? name).or
      ((members.flatMap (·.declaredKeys naming)).find? (·.name == name)) := by
  induction members generalizing s with
  | nil =>
    cases h
    exact Option.or_none.symm
  | cons m rest ih =>
    obtain ⟨next, hnext, hrest⟩ := ok_of_bind_eq_ok h
    obtain ⟨keys, hkeys, hadded⟩ := ok_of_bind_eq_ok hnext
    have hfirst := Member.find?_foreignKeys (SchemaError.ofQuery_eq_ok_iff.1 hkeys) name
    rw [ih hrest, Schema.get?_relationships_addMissing hadded, hfirst, Option.or_assoc,
      List.flatMap_cons, List.find?_append]

theorem get?_relationships_cascaded {members : List Member} {s s' : Schema}
    (h : members.foldlM (fun s m => do
      let names ← SchemaError.ofQuery (m.cascadedKeys naming)
      return names.foldl Schema.cascade s) s = .ok s') (name : String) :
    s'.relationships.get? name = (s.relationships.get? name).map fun key =>
      if name ∈ members.flatMap fun m => (m.cascadedKeys naming).toOption.getD [] then key.cascading
      else key := by
  induction members generalizing s with
  | nil =>
    cases h
    simp
  | cons m rest ih =>
    obtain ⟨next, hnext, hrest⟩ := ok_of_bind_eq_ok h
    obtain ⟨names, hnames, hdone⟩ := ok_of_bind_eq_ok hnext
    cases hdone
    have hnames := toOption_eq_some_iff.2 (SchemaError.ofQuery_eq_ok_iff.1 hnames)
    rw [ih hrest, Schema.get?_relationships_foldl_cascade, Option.map_map]
    refine congrArg (Option.map · _) (funext fun key => ?_)
    rw [List.flatMap_cons, hnames, Option.getD_some]
    by_cases hfirst : name ∈ names <;> simp [hfirst]

/-- Every declared key stands under the name of the columns that hold it. -/
theorem name_of_keyNamed? {name : String} {key : Relationship} (h : r.keyNamed? naming name = some key) :
    key.name = name ∧ key.referencing.keyName = name := by
  have hname : key.name = name := by simpa using List.find?_some h
  obtain ⟨m, _, hkey⟩ := List.mem_flatMap.1 (List.mem_of_find?_eq_some h)
  exact ⟨hname, (m.name_of_mem_declaredKeys key hkey).symm.trans hname⟩

/-- Under each name the schema holds the first foreign key that is declared under it, with what cascading
relations add to it. -/
theorem get?_relationships_schemaBy (h : r.schemaBy naming = .ok s) (name : String) :
    s.relationships.get? name = (r.keyNamed? naming name).map (r.withCascade naming) := by
  obtain ⟨linked, hlinked, hcascaded⟩ := ok_of_bind_eq_ok h
  have hempty := (r.filled_of_members naming).1
  rw [get?_relationships_cascaded hcascaded, get?_relationships_linked hlinked, hempty]
  refine Option.map_congr fun key hkey => ?_
  rw [withCascade, (name_of_keyNamed? (Option.mem_def.1 hkey)).1]
  rfl

@[simp]
theorem name_withCascade (key : Relationship) : (r.withCascade naming key).name = key.name := by
  rw [withCascade]
  split <;> rfl

@[simp]
theorem referencing_withCascade (key : Relationship) :
    (r.withCascade naming key).referencing = key.referencing := by
  rw [withCascade]
  split <;> rfl

@[simp]
theorem referenced_withCascade (key : Relationship) :
    (r.withCascade naming key).referenced = key.referenced := by
  rw [withCascade]
  split <;> rfl

theorem onDelete?_withCascade (key : Relationship) :
    (r.withCascade naming key).onDelete? =
      if key.name ∈ r.cascadedNames naming then key.onDelete?.or (some .cascade) else key.onDelete? := by
  rw [withCascade]
  split <;> rfl

theorem mem_relationships_iff (h : r.schemaBy naming = .ok s) {built : Relationship} :
    built ∈ s.relationships.values ↔
      ∃ name key, r.keyNamed? naming name = some key ∧ r.withCascade naming key = built := by
  simp only [Assoc.mem_values_iff, get?_relationships_schemaBy h, Option.map_eq_some_iff]

/-- Every foreign key of the schema is the first declared one of its name, but for what is added to it. -/
theorem exists_keyNamed?_of_mem (h : r.schemaBy naming = .ok s) {built : Relationship}
    (hbuilt : built ∈ s.relationships.values) :
    ∃ key, r.keyNamed? naming built.name = some key ∧ r.withCascade naming key = built := by
  obtain ⟨name, key, hkey, rfl⟩ := (mem_relationships_iff h).1 hbuilt
  exact ⟨key, by rw [name_withCascade, (name_of_keyNamed? hkey).1, hkey], rfl⟩

/-- The names that are called for are those of the keys behind cascading relations. -/
theorem mem_cascadedNames_iff (h : r.schemaBy naming = .ok s) {name : String} :
    name ∈ r.cascadedNames naming ↔ ∃ m ∈ r.members, ∃ e, m.Cascades naming e ∧ e.keyName = name := by
  rw [cascadedNames, List.mem_flatMap]
  refine exists_congr fun m => and_congr_right fun hm => ?_
  obtain ⟨names, hnames⟩ := (exists_keys_of_schemaBy h hm).2
  rw [hnames]
  exact Member.mem_cascadedKeys_iff hnames

end Registry

end EntitySql
