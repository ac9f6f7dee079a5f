import EntitySql.Proofs.Schema.FromRegistry
/-!
# Links between tables and relationships

A relationship stands in three places: under its name in the schema, among the outgoing links of the table that holds
the key, and among the incoming links of the table that the key refers to. What is added to a schema keeps the three in
step unless it takes the place of something that has links (`Schema.hasLinks_add_iff`): a table has to list the
relationships of its name, which one that is made anew does not, and a relationship of a known name has to join the
tables that the old one joined, since nothing takes the old links away. So the links hold behind each of several
additions exactly if each addition keeps them (`Schema.hasLinks_ofAdditions_iff`).
-/

namespace EntitySql

/-- A side of a relationship. -/
inductive Relationship.Side
  /-- The side that holds the key. -/
  | referencing
  /-- The side that the key refers to. -/
  | referenced

/-- The name of the table on a side. -/
def Relationship.tableOn (r : Relationship) : Side → String
  | .referencing => r.referencing.table
  | .referenced => r.referenced.table

/-- The names of the relationships that a table has on a side of it. -/
def Table.links (t : Table) : Relationship.Side → List String
  | .referencing => t.outgoing
  | .referenced => t.incoming

namespace Schema

open Relationship (Side)

/-! ## Additions -/

/-- Something that is added to a schema. -/
inductive Addition
  | table (t : Table)
  | relationship (r : Relationship)

/-- The schema behind an addition. One that fails leaves the schema as it is. -/
def add (s : Schema) : Addition → Schema
  | .table t => s.addTable t
  | .relationship r => (s.addRelationship r).toOption.getD s

/-- The schema behind additions to the empty one. -/
def ofAdditions (additions : List Addition) : Schema := additions.foldl add {}

variable {s s' : Schema} {r : Relationship} {t : Table} {side : Side} {e : SchemaError}

theorem ofAdditions_append_singleton (additions : List Addition) (a : Addition) :
    ofAdditions (additions ++ [a]) = (ofAdditions additions).add a := by
  rw [ofAdditions, List.foldl_append]
  rfl

/-- A relationship is added if both of its tables exist. -/
theorem add_relationship_of_known (h : ∀ side, r.tableOn side ∈ s.tables.keys) :
    s.add (.relationship r) = s.addForeignKey r := by
  have hadded := addRelationship_eq_ok_iff.2 ⟨h .referencing, h .referenced, rfl⟩
  rw [add, hadded]
  rfl

/-- A relationship that is not added lacks a table, and nothing else happens. -/
theorem add_relationship_of_error (h : s.addRelationship r = .error e) :
    s.add (.relationship r) = s ∧
      ∃ side, r.tableOn side ∉ s.tables.keys ∧ e = .unknownTable (r.tableOn side) := by
  refine ⟨by rw [add, h]; rfl, ?_⟩
  unfold addRelationship at h
  split at h
  · rename_i hunknown
    exact ⟨.referencing, by simpa [Relationship.tableOn] using hunknown, (Except.error.inj h).symm⟩
  · split at h
    · rename_i hunknown
      exact ⟨.referenced, by simpa [Relationship.tableOn] using hunknown, (Except.error.inj h).symm⟩
    · cases h

/-- Either both tables of a relationship exist, or it changes nothing. -/
theorem known_or_add_eq (s : Schema) (r : Relationship) :
    (∀ side, r.tableOn side ∈ s.tables.keys) ∨
      ¬(∀ side, r.tableOn side ∈ s.tables.keys) ∧ s.add (.relationship r) = s := by
  cases hadded : s.addRelationship r with
  | ok s' =>
    obtain ⟨hreferencing, hreferenced, _⟩ := addRelationship_eq_ok_iff.1 hadded
    exact .inl fun
      | .referencing => hreferencing
      | .referenced => hreferenced
  | error e =>
    obtain ⟨hsame, side, hunknown, _⟩ := add_relationship_of_error hadded
    exact .inr ⟨fun h => hunknown (h side), hsame⟩

/-! ## What additions always keep -/

/-- Whether tables and relationships stand under their own names, and relationships join tables that exist. -/
structure IsJoined (s : Schema) : Prop where
  tables : s.tables.IsNamed Table.name
  relationships : s.relationships.IsNamed Relationship.name
  joined : ∀ r ∈ s.relationships.values, ∀ side, r.tableOn side ∈ s.tables.keys

theorem IsJoined.add (h : s.IsJoined) (a : Addition) : (s.add a).IsJoined := by
  cases a with
  | table t =>
    refine ⟨h.tables.insert rfl, h.relationships, fun r hr side => ?_⟩
    exact Assoc.mem_keys_insert.2 (.inr (h.joined r hr side))
  | relationship r =>
    rcases s.known_or_add_eq r with hknown | ⟨_, hsame⟩
    · have hkeys := s.keys_tables_addForeignKey r
      rw [add_relationship_of_known hknown]
      refine ⟨?_, h.relationships.insert rfl, ?_⟩
      · refine Assoc.IsNamed.modify (Assoc.IsNamed.modify h.tables ?_) ?_
        all_goals exact fun _ => rfl
      · rw [hkeys]
        exact Assoc.forall_mem_values_insert h.joined hknown
    · rwa [hsame]

theorem isJoined_ofAdditions (additions : List Addition) : (ofAdditions additions).IsJoined :=
  List.foldlRecOn (motive := IsJoined) additions Schema.add ⟨.empty, .empty, nofun⟩ fun _ h a _ => h.add a

/-! ## Links -/

/-- Whether the names are those of the relationships that have the table on the side, each once. -/
def Lists (s : Schema) (side : Side) (table : String) (names : List String) : Prop :=
  names.Nodup ∧ ∀ name, name ∈ names ↔ ∃ r, s.relationships.get? name = some r ∧ r.tableOn side = table

/-- Whether relationships join tables that exist, and each table lists on either side the relationships that have it
there, and nothing else. -/
structure HasLinks (s : Schema) : Prop where
  joined : ∀ r ∈ s.relationships.values, ∀ side, r.tableOn side ∈ s.tables.keys
  listed : ∀ t ∈ s.tables.values, ∀ side, s.Lists side t.name (t.links side)

/-- Whether an addition keeps the links of a schema. A table takes the place of one of its name and has to list the
relationships of that one; a relationship that is added, and takes the place of one of its name, has to join the same
tables. -/
def Addition.KeepsLinks (s : Schema) : Addition → Prop
  | .table t => ∀ side, s.Lists side t.name (t.links side)
  | .relationship r => (∀ side, r.tableOn side ∈ s.tables.keys) →
    ∀ old, s.relationships.get? r.name = some old → ∀ side, old.tableOn side = r.tableOn side

theorem nodup_link {name : String} {names : List String} (h : names.Nodup) : (link name names).Nodup := by
  unfold link
  split
  · exact h
  · rename_i hnew
    refine List.nodup_append.2 ⟨h, List.nodup_singleton name, ?_⟩
    rintro other hother _ hname rfl
    exact hnew (List.contains_iff_mem.2 (List.mem_singleton.1 hname ▸ hother))

/-- The tables behind a relationship that is added: its name is a link of the tables on its sides. -/
theorem mem_values_addForeignKey (htables : s.tables.IsNamed Table.name) {t : Table}
    (ht : t ∈ (s.addForeignKey r).tables.values) :
    ∃ old ∈ s.tables.values, t.name = old.name ∧
      ∀ side, t.links side = if old.name = r.tableOn side then link r.name (old.links side) else old.links side := by
  obtain ⟨name, hget⟩ := Assoc.mem_values_iff.1 ht
  obtain ⟨old, hold, rfl⟩ := Option.map_eq_some_iff.1 ((s.table?_addForeignKey r name).symm.trans hget)
  obtain rfl := htables name old hold
  exact ⟨old, Assoc.mem_values_of_get? hold, rfl, fun side => by cases side <;> rfl⟩

theorem exists_mem_values_addForeignKey (h : t ∈ s.tables.values) (htables : s.tables.IsNamed Table.name) :
    ∃ new ∈ (s.addForeignKey r).tables.values, new.name = t.name ∧
      ∀ side, new.links side = if t.name = r.tableOn side then link r.name (t.links side) else t.links side := by
  have hget := s.table?_addForeignKey r t.name
  rw [show s.table? t.name = some t from htables.get?_of_mem h, Option.map_some] at hget
  exact ⟨_, Assoc.mem_values_of_get? hget, rfl, fun side => by cases side <;> rfl⟩

/-- Behind a relationship that is added a table lists its relationships exactly if the one that had the name before does
not keep a link that is no longer right. -/
theorem lists_addForeignKey_iff {names : List String} {table : String} (h : s.Lists side table names) :
    (s.addForeignKey r).Lists side table (if table = r.tableOn side then link r.name names else names) ↔
      ∀ old, s.relationships.get? r.name = some old → old.tableOn side = table → r.tableOn side = table := by
  obtain ⟨hnodup, hnames⟩ := h
  have hget : ∀ name, (s.addForeignKey r).relationships.get? name =
      if name = r.name then some r else s.relationships.get? name := fun name => Assoc.get?_insert ..
  have hmem : ∀ name, name ∈ (if table = r.tableOn side then link r.name names else names) ↔
      table = r.tableOn side ∧ name = r.name ∨ name ∈ names := fun name => by
    split <;> simp [*]
  simp only [Lists, hget, hmem]
  constructor
  · rintro ⟨-, hlisted⟩ old hold htable
    have hname := (hlisted r.name).1 (.inr ((hnames r.name).2 ⟨old, hold, htable⟩))
    simpa using hname
  · intro hkeeps
    refine ⟨?_, fun name => ?_⟩
    · split
      · exact nodup_link hnodup
      · exact hnodup
    · by_cases hname : name = r.name
      · subst hname
        simp only [and_true, if_pos, Option.some.injEq, exists_eq_left', hnames]
        constructor
        · rintro (rfl | ⟨old, hold, htable⟩)
          · rfl
          · exact hkeeps old hold htable
        · exact fun htable => .inl htable.symm
      · simp [hname, hnames]

/-- A relationship between known tables keeps the links of a schema exactly if it joins the tables that the one of its
name joined. -/
theorem hasLinks_addForeignKey_iff (hnamed : s.IsJoined) (h : s.HasLinks)
    (hknown : ∀ side, r.tableOn side ∈ s.tables.keys) : (s.addForeignKey r).HasLinks ↔
      ∀ old, s.relationships.get? r.name = some old → ∀ side, old.tableOn side = r.tableOn side := by
  constructor
  · intro hadded old hold side
    -- The table on the side of the old relationship still lists the name.
    have hold' := h.joined old (Assoc.mem_values_of_get? hold) side
    obtain ⟨t, ht⟩ := Assoc.mem_keys_iff.1 hold'
    have hname : t.name = old.tableOn side := hnamed.tables _ t ht
    have hmem := Assoc.mem_values_of_get? ht
    obtain ⟨new, hnew, hnewName, hlinks⟩ := exists_mem_values_addForeignKey (r := r) hmem hnamed.tables
    have hlisted := hadded.listed new hnew side
    rw [hnewName, hlinks] at hlisted
    exact hname.symm.trans ((lists_addForeignKey_iff (h.listed t hmem side)).1 hlisted old hold hname.symm).symm
  · intro hkeeps
    refine ⟨?_, fun t ht side => ?_⟩
    · have hjoined := hnamed.add (.relationship r)
      rw [add_relationship_of_known hknown] at hjoined
      exact hjoined.joined
    · obtain ⟨old, hmem, hname, hlinks⟩ := mem_values_addForeignKey hnamed.tables ht
      rw [hname, hlinks]
      exact (lists_addForeignKey_iff (h.listed old hmem side)).2 fun other hother htable =>
        (hkeeps other hother side).symm.trans htable

/-- An addition keeps the links of a schema exactly if nothing that has links makes way for something with others. -/
theorem hasLinks_add_iff (hnamed : s.IsJoined) (h : s.HasLinks) {a : Addition} :
    (s.add a).HasLinks ↔ a.KeepsLinks s := by
  cases a with
  | table t =>
    constructor
    · exact fun hadded => hadded.listed t (Assoc.mem_values_of_get? (s.tables.get?_insert_self t.name t))
    · exact fun hkeeps => ⟨(hnamed.add (.table t)).joined, Assoc.forall_mem_values_insert h.listed hkeeps⟩
  | relationship r =>
    rcases s.known_or_add_eq r with hknown | ⟨hunknown, hsame⟩
    · rw [add_relationship_of_known hknown, hasLinks_addForeignKey_iff hnamed h hknown]
      exact ⟨fun hkeeps _ => hkeeps, fun hkeeps => hkeeps hknown⟩
    · rw [hsame]
      exact iff_of_true h fun hknown => absurd hknown hunknown

theorem hasLinks_empty : HasLinks {} := ⟨nofun, nofun⟩

/-- Behind additions tables and relationships stand under their names, relationships join tables that exist, and one
that lacks a table changes nothing. The links hold all the way exactly if no addition takes the place of something that
has links and is given others. -/
theorem hasLinks_ofAdditions_iff (additions : List Addition) :
    (ofAdditions additions).IsJoined ∧
      (∀ r e, (ofAdditions additions).addRelationship r = .error e →
        ofAdditions (additions ++ [.relationship r]) = ofAdditions additions ∧
          ∃ side, r.tableOn side ∉ (ofAdditions additions).tables.keys ∧ e = .unknownTable (r.tableOn side)) ∧
      ((∀ front, front <+: additions → (ofAdditions front).HasLinks) ↔
        EachAfter (fun before a => a.KeepsLinks (ofAdditions before)) additions) := by
  refine ⟨isJoined_ofAdditions additions, fun r e h => ?_, ?_, ?_⟩
  · rw [ofAdditions_append_singleton]
    exact add_relationship_of_error h
  · rintro h before a after rfl
    have hbefore := h before (List.prefix_append before _)
    have hadded := h (before ++ [a]) ⟨after, by simp⟩
    rw [ofAdditions_append_singleton] at hadded
    exact (hasLinks_add_iff (isJoined_ofAdditions before) hbefore).1 hadded
  · intro h front
    induction front using List.reverseRecOn with
    | nil => exact fun _ => hasLinks_empty
    | append_singleton before a ih =>
      rintro ⟨after, hsplit⟩
      have hbefore := ih ⟨a :: after, by rw [← hsplit]; simp⟩
      rw [ofAdditions_append_singleton]
      exact (hasLinks_add_iff (isJoined_ofAdditions before) hbefore).2
        (h before a after (by rw [← hsplit]; simp))

/-- A key that is moved to another table stays among the links of the first one, and a table that is made anew has lost
its key. -/
theorem keeps_link_of_moved_key :
    let column : Column := { name := "authorId", type := .of .integer }
    let book : Table := Table.addColumn { name := "book" } column
    let essay : Table := Table.addColumn { name := "essay" } column
    let author : Table := Table.addColumn { name := "author" } { name := "id", type := .of .integer }
    let key : Relationship :=
      { name := "fk_authorId", referencing := ⟨"book", ["authorId"]⟩, referenced := ⟨"author", ["id"]⟩ }
    let moved : Relationship := { key with referencing := ⟨"essay", ["authorId"]⟩ }
    let tables : List Addition := [.table book, .table essay, .table author]
    (ofAdditions (tables ++ [.relationship key, .relationship moved])).tables.get? "book" =
        some { book with outgoing := ["fk_authorId"] } ∧
      ¬(ofAdditions (tables ++ [.relationship key, .relationship moved])).HasLinks ∧
      (ofAdditions (tables ++ [.relationship key, .table book])).tables.get? "book" = some book ∧
      ¬(ofAdditions (tables ++ [.relationship key, .table book])).HasLinks := by
  intro column book essay author key moved tables
  have hmoved : (ofAdditions (tables ++ [.relationship key, .relationship moved])).tables.get? "book" =
      some { book with outgoing := ["fk_authorId"] } := by decide +kernel
  have hnew : (ofAdditions (tables ++ [.relationship key, .table book])).tables.get? "book" = some book := by
    decide +kernel
  refine ⟨hmoved, fun h => ?_, hnew, fun h => ?_⟩
  · have hlisted := (h.listed _ (Assoc.mem_values_of_get? hmoved) .referencing).2 "fk_authorId"
    obtain ⟨r, hr, htable⟩ := hlisted.1 (.head _)
    obtain rfl : moved = r := Option.some.inj hr
    exact absurd htable (by decide)
  · have hlisted := (h.listed _ (Assoc.mem_values_of_get? hnew) .referencing).2 "fk_authorId"
    exact absurd (hlisted.2 ⟨key, rfl, rfl⟩) List.not_mem_nil

end Schema

end EntitySql
