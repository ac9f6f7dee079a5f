import EntitySql.Proofs.Schema.DeclaredKeys
/-!
# References that become foreign keys

A field with a reference declares a foreign key. The schema of the registry holds it exactly if the first key
that is declared under its name says the same (`Registry.keepsReferences_iff`). A name is put together from
those of a table and of columns, so keys of different columns may share one, and then all but the first of
them are lost.
-/

namespace EntitySql

/-- Whether the foreign key says what the field of `m` declares by its reference to `target`: where it leads
from and to, and what happens on updates and deletes. Deletes that the reference says nothing of cascade where
a cascading relation calls for the key. -/
structure Relationship.Says (built : Relationship) (naming : Naming) (m target : Member) (key : String)
    (reference : FieldReference) : Prop where
  referencing :
    built.referencing = { table := m.tableNameBy naming, columns := [m.columnNameBy naming key] }
  referenced :
    built.referenced = {
      table := target.tableNameBy naming
      columns := [target.columnNameBy naming (reference.field?.getD target.entity.id)] }
  onUpdate : built.onUpdate? = reference.onUpdate?
  onDelete :
    built.onDelete? =
      if built.name ∈ m.registry.cascadedNames naming then reference.onDelete?.or (some .cascade)
      else reference.onDelete?

namespace Registry

variable (r : Registry) (naming : Naming)

/-- Whether each stored field with a reference has its foreign key in the schema. -/
def KeepsReferences (s : Schema) : Prop :=
  ∀ m ∈ r.members, ∀ entry ∈ m.entity.fields.entries, entry.2.isStored = true →
    ∀ reference, entry.2.reference? = some reference →
      ∃ target, r.member reference.entity = .ok target ∧
        ∃ built ∈ s.relationships.values, built.Says naming m target entry.1 reference

/-- Whether the first foreign key that is declared under the name of a stored field's key says, with what
cascading relations add to it, what that field declares. -/
def FirstKeysSay : Prop :=
  ∀ m ∈ r.members, ∀ entry ∈ m.entity.fields.entries, entry.2.isStored = true →
    ∀ reference, entry.2.reference? = some reference →
      ∃ target, r.member reference.entity = .ok target ∧
        ∃ first, r.keyNamed? naming
            (Schema.foreignKeyName (m.tableNameBy naming) [m.columnNameBy naming entry.1]) = some first ∧
          (r.withCascade naming first).Says naming m target entry.1 reference

/-- Whether names tell tables, columns and foreign keys apart: no two entities share a table, no two fields of
an entity share a column, and no two foreign keys of different columns share a name. -/
structure SeparatesKeys : Prop where
  tables : (r.members.map (·.tableNameBy naming)).Nodup
  columns : ∀ m ∈ r.members, (m.entity.fields.keys.map (m.columnNameBy naming)).Nodup
  keys : ∀ key ∈ r.declaredKeys naming, ∀ other ∈ r.declaredKeys naming,
    key.name = other.name → key.referencing = other.referencing

instance : Decidable (r.SeparatesKeys naming) :=
  decidable_of_iff
    ((r.members.map (·.tableNameBy naming)).Nodup ∧
      (∀ m ∈ r.members, (m.entity.fields.keys.map (m.columnNameBy naming)).Nodup) ∧
      ∀ key ∈ r.declaredKeys naming, ∀ other ∈ r.declaredKeys naming,
        key.name = other.name → key.referencing = other.referencing)
    ⟨fun ⟨tables, columns, keys⟩ => { tables, columns, keys }, fun h => ⟨h.tables, h.columns, h.keys⟩⟩

variable {r naming} {s : Schema}

/-- The key of a field, with what cascading relations add to it, says what the field declares. -/
theorem says_withCascade {m target : Member} (hm : m ∈ r.members) {key : String}
    {reference : FieldReference} (htarget : r.member reference.entity = .ok target)
    {declared : Relationship} (hdeclared : m.fieldKey naming key reference = .ok declared) :
    (r.withCascade naming declared).Says naming m target key reference := by
  obtain ⟨found, hfound, hdeclared⟩ := ok_of_bind_eq_ok hdeclared
  have hregistry := (mem_members_iff.1 hm).1
  rw [hregistry, htarget] at hfound
  cases hfound
  cases hdeclared
  constructor <;> simp only [withCascade, hregistry] <;> split <;> simp_all [Relationship.cascading]

end Registry

namespace Member

variable {m : Member} {naming : Naming} {key : String} {declared first : Relationship}

theorem referencing_fieldKey {reference : FieldReference} :
    Ensures (fun declared => declared.referencing =
        { table := m.tableNameBy naming, columns := [m.columnNameBy naming key] })
      (m.fieldKey naming key reference) := .bind_any fun _ => .pure rfl

/-- Fields come before relations, so a name that is due to a field's key is not that of a relation's. -/
theorem mem_fieldKeys_of_find? (hdeclared : declared ∈ m.fieldKeys naming)
    (hfirst : (m.declaredKeys naming).find? (·.name == declared.name) = some first) :
    first ∈ m.fieldKeys naming := by
  have hsome : ((m.fieldKeys naming).find? (·.name == declared.name)).isSome :=
    List.find?_isSome.2 ⟨declared, hdeclared, beq_self_eq_true _⟩
  obtain ⟨other, hother⟩ := Option.isSome_iff_exists.1 hsome
  rw [declaredKeys, List.find?_append, hother, Option.some_or] at hfirst
  cases hfirst
  exact List.mem_of_find?_eq_some hother

/-- Where fields have columns of their own, each has one key. -/
theorem eq_of_mem_fieldKeys (hcolumns : (m.entity.fields.keys.map (m.columnNameBy naming)).Nodup)
    (hdeclared : declared ∈ m.fieldKeys naming) (hfirst : first ∈ m.fieldKeys naming)
    (hsame : first.referencing = declared.referencing) : first = declared := by
  obtain ⟨entry, hentry, reference, hreference, hdeclared⟩ := mem_fieldKeys_iff.1 hdeclared
  obtain ⟨other, hother, reference', hreference', hfirst⟩ := mem_fieldKeys_iff.1 hfirst
  have hcolumn : m.columnNameBy naming other.1 = m.columnNameBy naming entry.1 := by
    rw [referencing_fieldKey _ hfirst, referencing_fieldKey _ hdeclared] at hsame
    simpa using hsame
  have hkey : other.1 = entry.1 :=
    List.inj_on_of_nodup_map hcolumns (List.mem_map_of_mem hother) (List.mem_map_of_mem hentry) hcolumn
  obtain rfl := List.inj_on_of_nodup_map m.entity.fields.distinct hother hentry hkey
  obtain rfl := Option.some.inj (hreference'.symm.trans hreference)
  exact Except.ok.inj (hfirst.symm.trans hdeclared)

end Member

namespace Registry

variable {r : Registry} {naming : Naming} {s : Schema}

/-- Where names tell them apart, the key of a field is the first one under its name. -/
theorem SeparatesKeys.keyNamed?_eq (h : r.SeparatesKeys naming) {m : Member} (hm : m ∈ r.members)
    {declared : Relationship} (hdeclared : declared ∈ m.fieldKeys naming) :
    r.keyNamed? naming declared.name = some declared := by
  have hmember : declared ∈ m.declaredKeys naming := List.mem_append_left _ hdeclared
  have hall : declared ∈ r.declaredKeys naming := List.mem_flatMap.2 ⟨m, hm, hmember⟩
  obtain ⟨first, hfirst⟩ : ∃ first, r.keyNamed? naming declared.name = some first := by
    rw [← Option.isSome_iff_exists, keyNamed?, List.find?_isSome]
    exact ⟨declared, hall, beq_self_eq_true _⟩
  have hsame : first.referencing = declared.referencing :=
    h.keys first (List.mem_of_find?_eq_some hfirst) declared hall (name_of_keyNamed? hfirst).1
  obtain ⟨owner, howner, hfound⟩ : ∃ owner ∈ r.members,
      (owner.declaredKeys naming).find? (·.name == declared.name) = some first := by
    rw [keyNamed?, declaredKeys, List.find?_flatMap] at hfirst
    exact List.exists_of_findSome?_eq_some hfirst
  -- The first key under the name goes from the table of `m`, so `m` declares it.
  have htable : owner.tableNameBy naming = m.tableNameBy naming := by
    rw [← owner.table_of_mem_declaredKeys first (List.mem_of_find?_eq_some hfound), hsame,
      m.table_of_mem_declaredKeys declared hmember]
  obtain rfl := List.inj_on_of_nodup_map h.tables howner hm htable
  have hfield := Member.mem_fieldKeys_of_find? hdeclared hfound
  rw [hfirst, Member.eq_of_mem_fieldKeys (h.columns owner hm) hdeclared hfield hsame]

/-- The schema keeps every reference exactly if the first key under the name of each one says the same. It
does so where names tell tables, columns and foreign keys apart. -/
theorem keepsReferences_iff (h : r.schemaBy naming = .ok s) :
    (r.KeepsReferences naming s ↔ r.FirstKeysSay naming) ∧
      (r.SeparatesKeys naming → r.KeepsReferences naming s) := by
  have hfirst : r.KeepsReferences naming s ↔ r.FirstKeysSay naming := by
    refine forall₂_congr fun m _ => forall₂_congr fun entry _ => forall_congr' fun _ =>
      forall₂_congr fun reference _ => exists_congr fun target => and_congr_right fun _ => ?_
    constructor
    · rintro ⟨built, hbuilt, hsays⟩
      obtain ⟨name, first, hfound, rfl⟩ := (mem_relationships_iff h).1 hbuilt
      have hname := (name_of_keyNamed? hfound).2
      rw [← referencing_withCascade first, hsays.referencing] at hname
      cases hname
      exact ⟨first, hfound, hsays⟩
    · rintro ⟨first, hfound, hsays⟩
      exact ⟨_, (mem_relationships_iff h).2 ⟨_, first, hfound, rfl⟩, hsays⟩
  refine ⟨hfirst, fun hseparate => hfirst.2 fun m hm entry hentry _ reference hreference => ?_⟩
  obtain ⟨keys, hkeys⟩ := (exists_keys_of_schemaBy h hm).1
  obtain ⟨declared, hdeclared⟩ := m.exists_fieldKey hkeys hentry hreference
  obtain ⟨target, htarget, -⟩ := ok_of_bind_eq_ok hdeclared
  rw [(mem_members_iff.1 hm).1] at htarget
  have hfield : declared ∈ m.fieldKeys naming :=
    Member.mem_fieldKeys_iff.2 ⟨entry, hentry, reference, hreference, hdeclared⟩
  have hname : declared.name = Schema.foreignKeyName (m.tableNameBy naming) [m.columnNameBy naming entry.1] := by
    rw [m.name_of_mem_declaredKeys declared (List.mem_append_left _ hfield),
      Member.referencing_fieldKey _ hdeclared]
    rfl
  exact ⟨target, htarget, declared, hname ▸ hseparate.keyNamed?_eq hm hfield,
    says_withCascade hm htarget hdeclared⟩

/-- Orders and their items have notes, and items go with their order. -/
theorem keepsReferences_iff_notes :
    let id : Field := { type := .integer }
    let toNote : Field := { type := .integer, reference? := some { entity := "note" } }
    let toOrder : Field :=
      { type := .integer, reference? := some { entity := "order", onUpdate? := some .restrict } }
    let note : Entity :=
      { name := "note"
        fields := Assoc.ofPairs [("id", id), ("reply_to", toNote)] }
    let order : Entity :=
      { name := "order"
        fields := Assoc.ofPairs [("id", id), ("note", toNote)]
        relations := Assoc.ofPairs [("items",
          { entity := "order_item", cardinality := .oneToMany, keyPairs := [⟨"id", "order"⟩],
            cascade := true })] }
    let item : Entity :=
      { name := "order_item"
        fields := Assoc.ofPairs [("id", id), ("order", toOrder), ("remark", toNote)] }
    let r := Registry.ofList [note, order, item]
    ∃ s, r.schemaBy .verbatim = .ok s ∧ r.SeparatesKeys .verbatim ∧ r.KeepsReferences .verbatim s := by
  intro id toNote toOrder note order item r
  have hbuilt : (r.schemaBy .verbatim).toOption.isSome = true := by decide +kernel
  have hseparate : r.SeparatesKeys .verbatim := by decide +kernel
  obtain ⟨s, hs⟩ := Option.isSome_iff_exists.1 hbuilt
  have hs := toOption_eq_some_iff.1 hs
  exact ⟨s, hs, hseparate, (keepsReferences_iff hs).2 hseparate⟩

/-- The key of an order's item note has the name that is due to the one of an order item's note, which is
lost. -/
theorem loses_key_of_shared_name :
    let id : Field := { type := .integer }
    let toNote : Field := { type := .integer, reference? := some { entity := "note" } }
    let note : Entity := { name := "note", fields := Assoc.ofPairs [("id", id)] }
    let order : Entity := { name := "order", fields := Assoc.ofPairs [("id", id), ("item_note", toNote)] }
    let item : Entity := { name := "order_item", fields := Assoc.ofPairs [("id", id), ("note", toNote)] }
    let r := Registry.ofList [note, order, item]
    ∃ s, r.schemaBy .verbatim = .ok s ∧ ¬r.KeepsReferences .verbatim s := by
  intro id toNote note order item r
  have hkeys : (r.schemaBy .verbatim).toOption.map (fun s => s.relationships.values.map (·.referencing)) =
      some [{ table := "order", columns := ["item_note"] }] := by decide +kernel
  obtain ⟨s, hs, hkeys⟩ := Option.map_eq_some_iff.1 hkeys
  refine ⟨s, toOption_eq_some_iff.1 hs, fun h => ?_⟩
  obtain ⟨target, _, built, hbuilt, hsays⟩ := h ⟨r, item⟩ (List.mem_map_of_mem (.tail _ (.tail _ (.head _))))
    ("note", toNote) (.tail _ (.head _)) rfl _ rfl
  have hmem : built.referencing ∈ s.relationships.values.map (·.referencing) := List.mem_map_of_mem hbuilt
  rw [hkeys, hsays.referencing] at hmem
  exact absurd hmem (by decide +kernel)

end Registry

end EntitySql
