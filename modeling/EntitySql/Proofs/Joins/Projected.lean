import EntitySql.Proofs.Joins.Sources
import EntitySql.Proofs.Reading.Values
/-!
# Lists of what a query reads

Between `SELECT` and `FROM` stand the expressions for the rows of each source, between commas. Joined rows of an entity
with fields always have some. The rows of the queried entity have none where the projection leaves nothing of it: a list
without a known field, or a map that includes no field and leaves all of them out. `Compiler.listsSources_find` says
that nothing else goes wrong.
-/

namespace EntitySql

open Lexeme Lexer

/-! ## What is left of an entity -/

/-- Whether a projection asks for anything of an entity. -/
def Projection.AsksForSomething (m : Member) : Projection → Prop
  | .items list => (∃ sql, .raw sql ∈ list) ∨ ∃ key, .field key ∈ list ∧ m.entity.hasField key = true
  | .map entries => Compiler.IncludesField m entries ∨
      ∃ key ∈ m.entity.fields.keys, Compiler.leavesOut entries key = false

namespace Compiler

variable {m : Member}

theorem projectedItems_ne_nil_iff (projection : Projection) :
    projectedItems m (some projection) ≠ [] ↔ projection.AsksForSomething m := by
  rw [← List.isEmpty_eq_false_iff, List.isEmpty_eq_false_iff_exists_mem]
  cases projection with
  | items list =>
    constructor
    · rintro ⟨item, hitem⟩
      obtain ⟨hitem, hknown⟩ := List.mem_filter.1 hitem
      cases item with
      | raw sql => exact .inl ⟨sql, hitem⟩
      | field key => exact .inr ⟨key, hitem, hknown⟩
    · rintro (⟨sql, hsql⟩ | ⟨key, hkey, hknown⟩)
      · exact ⟨_, List.mem_filter.2 ⟨hsql, rfl⟩⟩
      · exact ⟨_, List.mem_filter.2 ⟨hkey, hknown⟩⟩
  | map entries =>
    simp only [mem_projectedItems_map_iff]
    constructor
    · rintro ⟨item, ⟨entry, hentry, hfield, hincluded, -⟩ | ⟨-, key, hkey, hkept, -⟩⟩
      · exact .inl ⟨entry, hentry, hfield, hincluded⟩
      · exact .inr ⟨key, hkey, hkept⟩
    · intro h
      by_cases hincludes : IncludesField m entries
      · obtain ⟨entry, hentry, hfield, hincluded⟩ := hincludes
        exact ⟨_, .inl ⟨entry, hentry, hfield, hincluded, rfl⟩⟩
      · obtain ⟨key, hkey, hkept⟩ := h.resolve_left hincludes
        exact ⟨_, .inr ⟨hincludes, key, hkey, hkept, rfl⟩⟩

theorem withId_ne_nil (m : Member) (items : List ProjectionItem) : withId m items ≠ [] := by
  rw [withId]
  split
  · rename_i hid
    exact List.ne_nil_of_mem (List.contains_iff_mem.1 hid)
  · exact List.cons_ne_nil _ _

end Compiler

namespace RowSource

open Compiler

/-- Whether anything is read of the rows of a source: without a projection its fields, and behind a qualifier its id. -/
def ReadsSomething (s : RowSource) : Prop :=
  match s.projection? with
  | none => s.owner.entity.fields.keys ≠ []
  | some projection => s.qualifier?.isSome = true ∨ projection.AsksForSomething s.owner

theorem items_ne_nil_iff {s : RowSource} : s.items ≠ [] ↔ s.ReadsSomething := by
  obtain ⟨keys, owner, projection?, options⟩ := s
  cases projection? with
  | none => exact List.map_eq_nil_iff.not
  | some projection =>
    change rootItems owner (some projection) options ≠ [] ↔ isQualified owner (some projection) options = true ∨ _
    rw [rootItems, Option.isSome_some, Bool.true_and]
    split
    · rename_i hqualified
      exact iff_of_true (withId_ne_nil _ _) (.inl hqualified)
    · rename_i hbare
      rw [or_iff_right hbare, projectedItems_ne_nil_iff]

/-- Whether an item is written as nothing: the field and its column have the empty name, and nothing qualifies them. -/
def isBlank (s : RowSource) : ProjectionItem → Bool
  | .raw _ => false
  | .field key => s.keys.isEmpty && (s.owner.computed? key).isNone && s.qualifier?.getD "" == "" && key == "" &&
      s.owner.columnName key == ""

theorem isBlank_field_iff {s : RowSource} {key : String} : s.isBlank (.field key) = true ↔
    s.keys = [] ∧ s.owner.computed? key = none ∧ s.qualifier?.getD "" = "" ∧ key = "" ∧
      s.owner.columnName key = "" := by
  simp only [isBlank, Bool.and_eq_true, List.isEmpty_iff, Option.isNone_iff_eq_none, beq_iff_eq, and_assoc]

/-- The raw SQL in what is read of a source. -/
def raws (s : RowSource) : List RawSql :=
  s.items.filterMap fun
    | .raw sql => some sql
    | .field key => s.owner.computed? key

end RowSource

/-! ## Expressions -/

namespace Compiler

variable {c : Compiler} {m : Member} {qualifier? : Option String} {aliased : Bool}

/-- An expression with a name for it is one part of a list. -/
theorem isWritten_named {expression : Sql} (h : c.dialect.IsWritten true expression) (name : String) :
    c.dialect.IsWritten true (expression ++ .word " " :: Sql.identifier name) :=
  have hnamed := Dialect.IsPlainText.named (d := c.dialect) name
  have ⟨hwhole, hsingle⟩ := hnamed.behind h.isWhole (h.isSingle_iff.2 rfl) rfl
  .of_isSingle hwhole hsingle

theorem isWritten_raw {sql : RawSql} (h : c.Expresses sql) :
    Ensures (c.dialect.IsWritten true) (c.raw m sql qualifier?) :=
  .bind_ok fun text htext => .pure (h m.registry _ text htext)

end Compiler

namespace RowSource

open Compiler

variable {c : Compiler} {s : RowSource}

/-- A column with a name for it is written as something, unless both of them are empty. -/
theorem isWritten_column_named {m : Member} {key name : String} {qualifier? : Option String}
    (h : m.columnName key = "" → name ≠ "") :
    c.dialect.IsWritten true (column m key qualifier? ++ .word " " :: Sql.identifier name) := by
  have hcolumn := Dialect.IsPlainText.column (d := c.dialect) m key qualifier?
  refine .of_isPlainText (hcolumn.append (.named name) rfl) fun hnone => ?_
  rw [Dialect.tokens_append_of_isBreak hcolumn.settles rfl, Dialect.tokens_space, List.append_eq_nil_iff,
    Dialect.tokens_column_eq_nil_iff, Dialect.tokens_identifier_eq_nil_iff] at hnone
  exact h hnone.1.2 hnone.2

/-- What is written for an item is one expression, unless it is nothing. -/
theorem isWritten_projectedItem {item : ProjectionItem} (hitem : item ∈ s.items) (hraws : c.ExpressesAll s.raws) :
    Ensures (c.dialect.IsWritten (!s.isBlank item))
      (c.projectedItem s.owner s.qualifier? (!s.keys.isEmpty) item) := by
  cases item with
  | raw sql =>
    have hsql : c.Expresses sql := hraws sql (List.mem_filterMap.2 ⟨_, hitem, rfl⟩)
    refine (isWritten_raw hsql).bind fun expression hexpression => ?_
    split
    · exact .pure (isWritten_named hexpression _)
    · exact .pure hexpression
  | field key =>
    rw [projectedItem]
    cases hcomputed : s.owner.computed? key with
    | some sql =>
      have hsql : c.Expresses sql := hraws sql (List.mem_filterMap.2 ⟨_, hitem, hcomputed⟩)
      have hblank : s.isBlank (.field key) = false := by simp [isBlank, hcomputed]
      rw [hblank]
      exact (isWritten_raw hsql).bind fun expression hexpression => .pure (isWritten_named hexpression _)
    | none =>
      dsimp only
      split
      · rename_i hnamed
        have hdiffers : s.keys = [] → s.owner.columnName key ≠ key := by
          intro hkeys
          simpa [hkeys] using hnamed
        have hblank : s.isBlank (.field key) = false := Bool.eq_false_iff.2 fun hblank => by
          obtain ⟨hkeys, -, -, hkey, hcolumn⟩ := isBlank_field_iff.1 hblank
          exact hdiffers hkeys (hcolumn.trans hkey.symm)
        rw [hblank]
        refine .pure (isWritten_column_named fun hcolumn => ?_)
        split
        · simp
        · rename_i hroot
          rintro rfl
          exact hdiffers (by simpa using hroot) hcolumn
      · rename_i hbare
        obtain ⟨hroot, hname⟩ : s.keys = [] ∧ s.owner.columnName key = key := by simpa using hbare
        have hcolumn := Dialect.IsPlainText.column (d := c.dialect) s.owner key s.qualifier?
        have hblank : s.isBlank (.field key) = true ↔ c.dialect.tokens (column s.owner key s.qualifier?) = [] := by
          rw [isBlank_field_iff, Dialect.tokens_column_eq_nil_iff]
          simp [hroot, hcomputed, hname]
        refine .pure ⟨hcolumn.isWhole, fun hsingle => ?_, fun hsome => hcolumn.isSingle fun hnone => ?_⟩
        · rw [Bool.not_eq_true', Bool.eq_false_iff]
          exact mt hblank.1 hsingle.ne_nil
        · rw [hblank.2 hnone] at hsome
          cases hsome

/-- Whether a source is read by a list of expressions: there is something to read, and nothing without a name. -/
def IsListed (s : RowSource) : Prop := s.ReadsSomething ∧ ∀ item ∈ s.items, s.isBlank item = false

theorem areWritten_expressions {group : List Sql} (hraws : c.ExpressesAll s.raws) (h : s.expressions c = .ok group) :
    c.dialect.AreWritten (fun item => !s.isBlank item) s.items group := by
  have hexpresses : ∀ item ∈ s.items, c.ExpressesAll s.raws := fun _ _ => hraws
  have hmem : ∀ item ∈ s.items, item ∈ s.items := fun _ => id
  refine ((List.forall₂_and_left _ _).2 ⟨hmem, forall₂_of_mapM_eq_ok h⟩).imp fun item sql hitem => ?_
  exact isWritten_projectedItem hitem.1 hraws sql hitem.2

/-- A reader finds a list of what is read of a source, with something in each part of it, if and only if there is
something to read, and nothing without a name. -/
theorem lists_iff_isListed {group : List Sql} (hraws : c.ExpressesAll s.raws) (h : s.expressions c = .ok group) :
    c.dialect.Lists group ↔ s.IsListed := by
  have hwritten := areWritten_expressions hraws h
  by_cases hnone : group = []
  · subst hnone
    have hitems : s.items = [] := List.forall₂_nil_right_iff.1 hwritten
    exact iff_of_false (fun hlists => nomatch hlists.split) fun hlisted => items_ne_nil_iff.2 hlisted.1 hitems
  · have hitems : s.items ≠ [] := by
      intro hitems
      rw [hitems] at hwritten
      exact hnone (List.forall₂_nil_left_iff.1 hwritten)
    rw [Dialect.lists_iff hwritten.isWhole hnone, hwritten.forall_isSingle_iff, IsListed,
      and_iff_right (items_ne_nil_iff.1 hitems)]
    simp only [Bool.not_eq_true']

/-- Joined rows of an entity with fields are read by a list of expressions. -/
theorem isListed_of_mem_sources {m : Member} {projection? : Option Projection} {options : FindOptions}
    (h : s ∈ m.sources projection? options) (hkeys : s.keys ≠ []) (hfields : s.owner.entity.fields.keys ≠ []) :
    s.IsListed := by
  have hqualifier := Member.qualifier?_of_mem_sources h hkeys
  refine ⟨?_, fun item _ => ?_⟩
  · unfold ReadsSomething
    split
    · exact hfields
    · exact .inl (by rw [hqualifier, Option.isSome_some])
  · cases item with
    | raw sql => rfl
    | field key => exact Bool.eq_false_iff.2 fun hblank => hkeys (isBlank_field_iff.1 hblank).1

end RowSource

/-! ## Statements -/

namespace Dialect

variable {d : Dialect} {sql : Sql}

theorem commaList_append {first second : List Sql} (hfirst : first ≠ []) (hsecond : second ≠ []) :
    Sql.commaList (first ++ second) = Sql.commaList first ++ .word ", " :: Sql.commaList second := by
  obtain ⟨next, others, rfl⟩ := List.exists_cons_of_ne_nil hsecond
  induction first with
  | nil => exact absurd rfl hfirst
  | cons sql rest ih =>
    cases rest with
    | nil => rw [List.singleton_append, commaList_cons_cons, commaList_singleton]
    | cons second rest =>
      rw [List.cons_append, List.cons_append, commaList_cons_cons, ← List.cons_append, ih (List.cons_ne_nil _ _),
        commaList_cons_cons, List.append_assoc]
      rfl

/-- Lists behind one another are one list, if there is something in each of them. -/
theorem commaList_flatten {groups : List (List Sql)} (h : ∀ group ∈ groups, group ≠ []) :
    Sql.commaList (groups.map Sql.commaList) = Sql.commaList groups.flatten := by
  induction groups with
  | nil => rfl
  | cons first rest ih =>
    obtain ⟨hfirst, hrest⟩ := List.forall_mem_cons.1 h
    cases rest with
    | nil => rw [List.map_singleton, commaList_singleton, List.flatten_singleton]
    | cons second rest =>
      have hothers : (second :: rest).flatten ≠ [] := by
        rw [List.flatten_cons]
        exact List.append_ne_nil_of_left_ne_nil (hrest second (.head _)) _
      rw [List.map_cons, List.map_cons, commaList_cons_cons, ← List.map_cons, ih hrest]
      exact (commaList_append hfirst hothers).symm

theorem Lists.ne_nil_of_lists {parts : List Sql} (h : d.Lists parts) : parts ≠ [] := by
  rintro rfl
  exact nomatch h.split

/-- Lists behind one another are one list. -/
theorem Lists.flatten {groups : List (List Sql)} (hne : groups ≠ [])
    (hwhole : ∀ group ∈ groups, ∀ sql ∈ group, d.IsWhole sql) (h : ∀ group ∈ groups, d.Lists group) :
    d.Lists groups.flatten := by
  have hall : ∀ sql ∈ groups.flatten, d.IsWhole sql := by
    intro sql hsql
    obtain ⟨group, hgroup, hsql⟩ := List.mem_flatten.1 hsql
    exact hwhole group hgroup sql hsql
  have hsome : groups.flatten ≠ [] := by
    obtain ⟨first, rest, rfl⟩ := List.exists_cons_of_ne_nil hne
    exact List.append_ne_nil_of_left_ne_nil (h first (.head _)).ne_nil_of_lists _
  refine (lists_iff hall hsome).2 fun sql hsql => ?_
  obtain ⟨group, hgroup, hsql⟩ := List.mem_flatten.1 hsql
  have hlists := h group hgroup
  exact (lists_iff (hwhole group hgroup) hlists.ne_nil_of_lists).1 hlists sql hsql

end Dialect

namespace Compiler

variable {c : Compiler} {m : Member} {query : Query} {options : FindOptions} {sql : Sql}

/-- How a reader takes apart what a statement reads of sources. -/
structure ListsSources (c : Compiler) (sources : List RowSource) (groups : List (List Sql)) (sql : Sql) : Prop where
  /-- Each source is read by a group of expressions. -/
  reads : c.ReadsSources sources groups sql
  /-- The groups stand between the keywords. -/
  tokens : ∃ rest, c.dialect.tokens sql = .word "SELECT".toList ::
    c.dialect.tokens (Sql.commaList (groups.map Sql.commaList)) ++ .word "FROM".toList :: rest
  /-- A group is a list of expressions if and only if there is something to read, and nothing without a name. -/
  lists_iff : List.Forall₂ (fun s group => c.dialect.Lists group ↔ s.IsListed) sources groups
  /-- If each group is a list, all of them are one list. -/
  flatten : (∀ s ∈ sources, s.IsListed) →
    Sql.commaList (groups.map Sql.commaList) = Sql.commaList groups.flatten ∧ c.dialect.Lists groups.flatten

/-- In the statement of a query a reader finds the expressions for each source, between commas and with something in
each part, unless nothing is left to read of the source or a field of the entity itself has no name at all. Joined rows
of an entity with fields are always read. -/
theorem listsSources_find (h : c.find m query options = .ok sql)
    (hraws : ∀ s ∈ m.sources query.projection? options, c.ExpressesAll s.raws) :
    ∃ groups, c.ListsSources (m.sources query.projection? options) groups sql ∧
      ∀ s ∈ m.sources query.projection? options,
        s.keys ≠ [] → s.owner.entity.fields.keys ≠ [] → s.IsListed := by
  obtain ⟨groups, hreads⟩ := ensures_readsSources c m query options sql h
  have hgroups := (List.forall₂_and_left _ _).2 ⟨hraws, hreads.expressions⟩
  have hwhole : ∀ group ∈ groups, ∀ sql ∈ group, c.dialect.IsWhole sql :=
    forall_mem_of_forall₂ (hgroups.imp fun _ _ h => (RowSource.areWritten_expressions h.1 h.2).isWhole)
  have hlists : List.Forall₂ (fun (s : RowSource) group => c.dialect.Lists group ↔ s.IsListed) _ groups :=
    hgroups.imp fun _ _ h => RowSource.lists_iff_isListed h.1 h.2
  refine ⟨groups, ⟨hreads, ?_, hlists, fun hlisted => ?_⟩, fun s hs hkeys hfields =>
    s.isListed_of_mem_sources hs hkeys hfields⟩
  · obtain ⟨rest, rfl⟩ := hreads.text
    have hselect : (c.dialect.scan .blank "SELECT ".toList).2 = .blank := by cases c.dialect <;> rfl
    have hselectTokens : c.dialect.lexemes "SELECT ".toList = [.word "SELECT".toList] := by
      cases c.dialect <;> rfl
    have hfrom : c.dialect.isGap " FROM ".toList = true := by cases c.dialect <;> rfl
    have hfromTokens : c.dialect.lexemes " FROM ".toList = [.word "FROM".toList] := by cases c.dialect <;> rfl
    have hlist : c.dialect.IsWhole (Sql.commaList (groups.map Sql.commaList)) :=
      .commaList (List.forall_mem_map.2 fun group hgroup => .commaList (hwhole group hgroup))
    refine ⟨c.dialect.tokens rest, ?_⟩
    rw [List.cons_append, Dialect.tokens_words hselect, Dialect.tokens_gap hlist.settles hfrom, hselectTokens,
      hfromTokens]
    rfl
  · have hall : ∀ group ∈ groups, c.dialect.Lists group :=
      forall_mem_of_forall₂ (((List.forall₂_and_left _ _).2 ⟨hlisted, hlists⟩).imp fun _ _ h => h.2.2 h.1)
    have hne : groups ≠ [] := by
      rintro rfl
      cases hlists
    refine ⟨Dialect.commaList_flatten fun group hgroup => (hall group hgroup).ne_nil_of_lists, ?_⟩
    exact .flatten hne hwhole hall

/-- An item is read by its id along with its unit, although the map leaves all of its own fields out. -/
theorem listsSources_find_items :
    let id : Field := { type := .integer }
    let unit : Relation := { entity := "unit", cardinality := .manyToOne, keyPairs := [⟨"unitId", "id"⟩] }
    let item : Entity :=
      { name := "item", fields := Assoc.ofPairs [("id", id), ("unitId", id)]
        relations := Assoc.ofPairs [("unit", unit)] }
    let units : Entity :=
      { name := "unit", fields := Assoc.ofPairs [("id", id), ("name", { type := .string, column? := some "label" })] }
    let m : Member := ⟨Registry.ofList [item, units], item⟩
    let c : Compiler := { dialect := .mysql, expander := fun _ _ => .ok "" }
    let query : Query :=
      { projection? := some (.map [("id", .flag false), ("unitId", .flag false), ("unit", .flag true)]) }
    ∃ sql groups, c.find m query {} = .ok sql ∧
      c.dialect.render sql = "SELECT `item`.`id`, `unit`.`id` `unit.id`, `unit`.`label` `unit.name` FROM `item` " ++
        "LEFT JOIN `unit` `unit` ON `unit`.`id` = `item`.`unitId`" ∧
      c.ListsSources (m.sources query.projection? {}) groups sql ∧ c.dialect.Lists groups.flatten := by
  intro id unit item units m c query
  have hstatement : ((c.find m query {}).toOption.map c.dialect.render) =
      some ("SELECT `item`.`id`, `unit`.`id` `unit.id`, `unit`.`label` `unit.name` FROM `item` " ++
        "LEFT JOIN `unit` `unit` ON `unit`.`id` = `item`.`unitId`") := by
    decide +kernel
  obtain ⟨sql, hsql, htext⟩ := exists_of_map_toOption_eq_some hstatement
  have hraws : ∀ s ∈ m.sources query.projection? {}, s.raws = [] := by decide +kernel
  have hfields : ∀ s ∈ m.sources query.projection? {}, s.owner.entity.fields.keys ≠ [] := by decide +kernel
  have hroot : ∀ s ∈ m.sources query.projection? {}, s.keys = [] →
      s.items ≠ [] ∧ ∀ item ∈ s.items, s.isBlank item = false := by
    decide +kernel
  obtain ⟨groups, hlists, hjoined⟩ := listsSources_find hsql fun s hs => expressesAll_of_eq_nil (hraws s hs)
  refine ⟨sql, groups, hsql, htext, hlists, (hlists.flatten fun s hs => ?_).2⟩
  by_cases hkeys : s.keys = []
  · exact ⟨RowSource.items_ne_nil_iff.1 (hroot s hs hkeys).1, (hroot s hs hkeys).2⟩
  · exact hjoined s hs hkeys (hfields s hs)

/-- Where a list knows no field, or a map leaves all fields out, nothing stands between the keywords. -/
theorem selects_nothing_of_tag :
    let tag : Entity :=
      { name := "Tag", fields := Assoc.ofPairs [("id", { type := .integer }), ("name", { type := .string })] }
    let m : Member := ⟨Registry.ofList [tag], tag⟩
    let c : Compiler := { dialect := .mysql, expander := fun _ _ => .ok "" }
    ∀ projection : Projection, projection ∈ [.items [], .items [.field "ghost"],
        .map [("id", .flag false), ("name", .flag false)]] →
      (c.find m { projection? := some projection } {}).map c.dialect.render = .ok "SELECT  FROM `Tag`" := by
  decide +kernel

end Compiler

end EntitySql
