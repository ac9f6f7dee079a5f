import EntitySql.Proofs.Schema.DeclaredKeys
/-!
# Deletes that cascade

A foreign key that says nothing of deletes cascades exactly if a cascading relation calls for a key of its
name, and one that says something is left alone. That the key then is the one behind such a relation of the
table that it refers to holds exactly if no name that is called for belongs to another key
(`Registry.cascadesWhereOwned_iff`).
-/

namespace EntitySql.Registry

variable (r : Registry) (naming : Naming)

/-- Whether a cascading relation calls for a foreign key of the name. -/
def CallsFor (name : String) : Prop := ∃ m ∈ r.members, ∃ e ∈ m.cascadedEnds naming, e.keyName = name

/-- Whether the table that the key refers to has an entity with a cascading relation behind which the key
stands. -/
def Owns (key : Relationship) : Prop :=
  ∃ m ∈ r.members, m.tableNameBy naming = key.referenced.table ∧ m.Cascades naming key.referencing

instance (name : String) : Decidable (r.CallsFor naming name) :=
  inferInstanceAs (Decidable (∃ m ∈ r.members, ∃ e ∈ m.cascadedEnds naming, e.keyName = name))

instance (key : Relationship) : Decidable (r.Owns naming key) :=
  inferInstanceAs (Decidable (∃ m ∈ r.members,
    m.tableNameBy naming = key.referenced.table ∧ m.Cascades naming key.referencing))

/-- Whether foreign keys keep the actions on deletes that they declare, and those without one cascade exactly
where they stand behind a cascading relation of the table that they refer to. -/
def CascadesWhereOwned (s : Schema) : Prop :=
  ∀ built ∈ s.relationships.values, ∀ declared, r.keyNamed? naming built.name = some declared →
    (∀ action, declared.onDelete? = some action → built.onDelete? = some action) ∧
      (declared.onDelete? = none → (built.onDelete? = some .cascade ↔ r.Owns naming built))

instance (s : Schema) : Decidable (r.CascadesWhereOwned naming s) :=
  inferInstanceAs (Decidable (∀ built ∈ s.relationships.values, ∀ declared ∈ r.keyNamed? naming built.name,
    (∀ action ∈ declared.onDelete?, built.onDelete? = some action) ∧
      (declared.onDelete? = none → (built.onDelete? = some .cascade ↔ r.Owns naming built))))

/-- Whether every foreign key that is called for and says nothing of deletes stands behind a cascading
relation of the table that it refers to. -/
def CallsForOwned : Prop :=
  ∀ key ∈ r.declaredKeys naming, r.keyNamed? naming key.name = some key → key.onDelete? = none →
    r.CallsFor naming key.name → r.Owns naming key

instance : Decidable (r.CallsForOwned naming) :=
  inferInstanceAs (Decidable (∀ key ∈ r.declaredKeys naming, r.keyNamed? naming key.name = some key →
    key.onDelete? = none → r.CallsFor naming key.name → r.Owns naming key))

variable {r naming} {s : Schema}

theorem callsFor_of_owns {key : Relationship} (hname : key.referencing.keyName = key.name)
    (h : r.Owns naming key) : r.CallsFor naming key.name := by
  obtain ⟨m, hm, _, hcascades⟩ := h
  exact ⟨m, hm, key.referencing, Member.mem_cascadedEnds_iff.2 hcascades, hname⟩

/-- What cascading relations add to a foreign key: an action on deletes where it says none and is called
for. -/
theorem onDelete?_withCascade_of_schemaBy (h : r.schemaBy naming = .ok s) (key : Relationship) :
    (∀ action, key.onDelete? = some action → (r.withCascade naming key).onDelete? = some action) ∧
      (key.onDelete? = none →
        (r.withCascade naming key).onDelete? =
          if r.CallsFor naming key.name then some .cascade else none) := by
  have hcalls : key.name ∈ r.cascadedNames naming ↔ r.CallsFor naming key.name := by
    simp only [mem_cascadedNames_iff h, CallsFor, Member.mem_cascadedEnds_iff]
  simp only [onDelete?_withCascade, hcalls]
  refine ⟨fun action haction => ?_, fun hnone => ?_⟩
  · rw [haction, Option.some_or, ite_self]
  · rw [hnone, Option.none_or]

/-- Declared actions on deletes are kept, and a key without one cascades exactly if a cascading relation calls
for its name. All deletes cascade where they should exactly if every key that is called for is the one
behind a cascading relation of the table that it refers to. -/
theorem cascadesWhereOwned_iff (h : r.schemaBy naming = .ok s) :
    (∀ built ∈ s.relationships.values, ∃ declared, r.keyNamed? naming built.name = some declared ∧
      (∀ action, declared.onDelete? = some action → built.onDelete? = some action) ∧
        (declared.onDelete? = none →
          built.onDelete? = if r.CallsFor naming built.name then some .cascade else none)) ∧
      (r.CascadesWhereOwned naming s ↔ r.CallsForOwned naming) := by
  have howns : ∀ key, r.Owns naming (r.withCascade naming key) ↔ r.Owns naming key := by
    simp only [Owns, referencing_withCascade, referenced_withCascade, implies_true]
  refine ⟨fun built hbuilt => ?_, fun hcascades key _ hkey hnone hcalls => ?_,
    fun howned built hbuilt declared hdeclared => ?_⟩
  · obtain ⟨declared, hdeclared, rfl⟩ := exists_keyNamed?_of_mem h hbuilt
    rw [name_withCascade] at hdeclared ⊢
    exact ⟨declared, hdeclared, onDelete?_withCascade_of_schemaBy h declared⟩
  · have hbuilt := (mem_relationships_iff h).2 ⟨key.name, key, hkey, rfl⟩
    have hdelete := (onDelete?_withCascade_of_schemaBy h key).2 hnone
    rw [if_pos hcalls] at hdelete
    rw [← howns]
    exact ((hcascades _ hbuilt key (by rwa [name_withCascade])).2 hnone).1 hdelete
  · obtain ⟨key, hkey, rfl⟩ := exists_keyNamed?_of_mem h hbuilt
    obtain rfl : declared = key := Option.some.inj (hdeclared.symm.trans hkey)
    rw [name_withCascade] at hdeclared
    obtain ⟨hkept, hadded⟩ := onDelete?_withCascade_of_schemaBy h declared
    refine ⟨hkept, fun hnone => ?_⟩
    rw [hadded hnone, howns]
    have hname : declared.referencing.keyName = declared.name := (name_of_keyNamed? hdeclared).2
    constructor
    · intro hcascade
      by_cases hcalls : r.CallsFor naming declared.name
      · exact howned declared (List.mem_of_find?_eq_some hdeclared) hdeclared hnone hcalls
      · rw [if_neg hcalls] at hcascade
        cases hcascade
    · intro hown
      rw [if_pos (callsFor_of_owns hname hown)]

/-- Notes and tags go with their items, but a tag that is in use stays. -/
theorem cascadesWhereOwned_iff_items :
    let id : Field := { type := .integer }
    let toEntity (name : String) (action? : Option ReferentialAction) : Field :=
      { type := .integer, reference? := some { entity := name, onDelete? := action? } }
    let item : Entity :=
      { name := "Item"
        fields := Assoc.ofPairs [("id", id)]
        relations := Assoc.ofPairs [
          ("notes", { entity := "Note", cardinality := .oneToMany, keyPairs := [⟨"id", "itemId"⟩],
                      cascade := true }),
          ("tags", { entity := "Tag", cardinality := .manyToMany, through? := some "ItemTag",
                     keyPairs := [⟨"itemId", "id"⟩, ⟨"tagId", "id"⟩], cascade := true })] }
    let tag : Entity := { name := "Tag", fields := Assoc.ofPairs [("id", id)] }
    let note : Entity :=
      { name := "Note", fields := Assoc.ofPairs [("id", id), ("itemId", toEntity "Item" none)] }
    let itemTag : Entity :=
      { name := "ItemTag"
        fields := Assoc.ofPairs [("id", id), ("itemId", toEntity "Item" none),
          ("tagId", toEntity "Tag" (some .restrict))] }
    let r := Registry.ofList [item, tag, note, itemTag]
    ∃ s, r.schemaBy .verbatim = .ok s ∧ r.CallsForOwned .verbatim ∧ r.CascadesWhereOwned .verbatim s := by
  intro id toEntity item tag note itemTag r
  have hbuilt : (r.schemaBy .verbatim).toOption.isSome = true := by decide +kernel
  have howned : r.CallsForOwned .verbatim := by decide +kernel
  obtain ⟨s, hs⟩ := Option.isSome_iff_exists.1 hbuilt
  have hs := toOption_eq_some_iff.1 hs
  exact ⟨s, hs, howned, (cascadesWhereOwned_iff hs).2.2 howned⟩

/-- The items of notes have no foreign key, and so that of orders, which has the name for it, cascades. -/
theorem cascades_key_of_shared_name :
    let id : Field := { type := .integer }
    let note : Entity :=
      { name := "note"
        fields := Assoc.ofPairs [("id", id)]
        relations := Assoc.ofPairs [("items",
          { entity := "order_item", cardinality := .oneToMany, keyPairs := [⟨"id", "note"⟩],
            cascade := true })] }
    let order : Entity :=
      { name := "order"
        fields := Assoc.ofPairs [("id", id),
          ("item_note", { type := .integer, reference? := some { entity := "note" } })] }
    let item : Entity := { name := "order_item", fields := Assoc.ofPairs [("id", id), ("note", id)] }
    let r := Registry.ofList [note, order, item]
    ∃ s, r.schemaBy .verbatim = .ok s ∧ ¬r.CascadesWhereOwned .verbatim s := by
  intro id note order item r
  have hfalse : (r.schemaBy .verbatim).toOption.map (fun s => decide (r.CascadesWhereOwned .verbatim s)) =
      some false := by decide +kernel
  obtain ⟨s, hs, hfalse⟩ := Option.map_eq_some_iff.1 hfalse
  exact ⟨s, toOption_eq_some_iff.1 hs, of_decide_eq_false hfalse⟩

end EntitySql.Registry
