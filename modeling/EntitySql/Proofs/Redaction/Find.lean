import EntitySql.Proofs.Redaction.Filter
/-!
# Reading statements with and without their texts

Projections and orders hold no texts of their own, so what they compile to is complete; the
conditions of joins and the clauses of a query are twins by what is known of filters.
-/

namespace EntitySql

/-- Two joins that differ in the texts of their conditions alone. -/
structure Join.Twin (d : Dialect) (a b : Join) : Prop where
  path : a.path = b.path
  table : a.table = b.table
  required : a.required = b.required
  parent : a.parent = b.parent
  columns : a.columns = b.columns
  condition : Predicate.Twin d a.condition b.condition

/-- Two plans that differ in the texts of their conditions alone, but for what is put off. -/
structure JoinPlan.Twin (d : Dialect) (a b : JoinPlan) : Prop where
  fields : List.Forall₂ (Sql.Twin d) a.fields b.fields
  joins : List.Forall₂ (Join.Twin d) a.joins b.joins

namespace JoinPlan.Twin

variable {d : Dialect}

theorem none : Twin d .none .none := ⟨.nil, .nil⟩

theorem append {a b first second : JoinPlan} (h : Twin d a b) (hrest : Twin d first second) :
    Twin d (a ++ first) (b ++ second) :=
  ⟨List.rel_append h.fields hrest.fields, List.rel_append h.joins hrest.joins⟩

end JoinPlan.Twin

theorem Join.twin_equality {d : Dialect} (j : Join) (pair : String × String) :
    Sql.Twin d (j.equality pair) (j.equality pair) :=
  (((Sql.Twin.identifier _).append (.cons .word (.identifier _))).append
    (.cons .word (.identifier _))).append
    (.cons .word (.identifier _))

theorem Join.Twin.toSql {d : Dialect} {a b : Join} (h : Twin d a b) :
    Sql.Twin d a.toSql b.toSql := by
  have hequality : a.equality = b.equality := by
    funext pair
    simp only [Join.equality, h.path, h.parent]
  have hcolumns : List.Forall₂ (Sql.Twin d) (b.columns.map b.equality)
      (b.columns.map b.equality) :=
    List.forall₂_same.2 fun sql hsql => by
      obtain ⟨pair, _, rfl⟩ := List.mem_map.1 hsql
      exact b.twin_equality pair
  have hcondition : Sql.Twin d
      (if a.condition.isEmpty then [] else .word " AND " :: a.condition.toSql)
      (if b.condition.isEmpty then [] else .word " AND " :: b.condition.toSql) := by
    rw [h.condition.isEmpty_eq]
    split
    · exact .nil
    · exact .cons .word h.condition.toSql
  have hkind : (if b.required then " INNER JOIN " else " LEFT JOIN ").toList.all Lexer.isPlain =
      true := by
    split <;> decide
  simp only [Join.toSql, h.path, h.table, h.required, h.columns, hequality]
  exact (((Sql.Twin.cons (.word hkind) (.path _)).append
    (.cons .word (.identifier _))).append
    (.cons .word (.join (by decide) hcolumns))).append hcondition

theorem JoinPlan.Twin.tables {d : Dialect} {a b : JoinPlan} (h : Twin d a b) :
    Sql.Twin d a.tables b.tables := by
  have hflat {as bs : List Join} (hjoins : List.Forall₂ (Join.Twin d) as bs) :
      Sql.Twin d (as.flatMap Join.toSql) (bs.flatMap Join.toSql) := by
    induction hjoins with
    | nil => exact .nil
    | cons hjoin _ ih => exact hjoin.toSql.append ih
  exact hflat h.joins

namespace Compiler

variable {c : Compiler}

/-! ## Projections -/

theorem filterMap_redactedEntries {α : Type} (f : String × ProjectionEntry → Option α)
    (hf : ∀ key entry, f (key, entry.redacted) = f (key, entry))
    (entries : List (String × ProjectionEntry)) :
    (ProjectionEntry.redactedEntries entries).filterMap f = entries.filterMap f := by
  induction entries with
  | nil => rfl
  | cons entry rest ih =>
    obtain ⟨key, entry⟩ := entry
    simp only [ProjectionEntry.redactedEntries, List.filterMap_cons, hf, ih]

theorem find?_redactedEntries (key : String) (entries : List (String × ProjectionEntry)) :
    Entries.find? key (ProjectionEntry.redactedEntries entries) =
      (Entries.find? key entries).map ProjectionEntry.redacted := by
  induction entries with
  | nil => rfl
  | cons entry rest ih =>
    obtain ⟨k, entry⟩ := entry
    simp only [ProjectionEntry.redactedEntries, Entries.find?, ih]
    split <;> rfl

/-- What a projection reads of an entity does not depend on its texts. -/
theorem projectedItems_redacted (m : Member) (projection? : Option Projection) :
    projectedItems m (projection?.map Projection.redacted) = projectedItems m projection? := by
  match projection? with
  | none | some (.items _) => rfl
  | some (.map entries) =>
    have hincluded := filterMap_redactedEntries (fun x : String × ProjectionEntry =>
      if m.entity.hasField x.1 && x.2.isIncluded then some (ProjectionItem.field x.1) else none)
      (fun key entry => by simp) entries
    have hexcluded (key : String) :
        (Entries.find? key (ProjectionEntry.redactedEntries entries)).any
          ProjectionEntry.isExcluded =
        (Entries.find? key entries).any ProjectionEntry.isExcluded := by
      rw [find?_redactedEntries]
      cases Entries.find? key entries <;> simp
    simp only [Option.map_some, Projection.redacted, projectedItems, hincluded, hexcluded]

/-- The raw SQL of a projection's items is raw SQL of the projection. -/
theorem confinesAll_projectedItems (m : Member) {projection? : Option Projection}
    (h : c.ConfinesAll (projection?.toList.flatMap Projection.raws)) :
    ∀ item ∈ projectedItems m projection?, c.ConfinesAll item.raws := by
  intro item hitem
  match projection? with
  | some (.items list) =>
    have hlist : c.ConfinesAll (list.flatMap ProjectionItem.raws) := h.of_mem (.head [])
    exact hlist.of_mem (List.mem_filter.1 hitem).1
  | none =>
    obtain ⟨key, _, rfl⟩ := List.mem_map.1 hitem
    exact .nil
  | some (.map entries) =>
    simp only [projectedItems] at hitem
    split at hitem
    · obtain ⟨key, _, rfl⟩ := List.mem_map.1 hitem
      exact .nil
    · obtain ⟨entry, _, hentry⟩ := List.mem_filterMap.1 hitem
      split at hentry
      · cases hentry
        exact .nil
      · cases hentry

theorem agree_projectedItem {m : Member} (hm : c.ConfinesAll m.raws) (qualifier? : Option String)
    (aliased : Bool) {item : ProjectionItem} (h : c.ConfinesAll item.raws) :
    Agree (Sql.Twin c.dialect) (c.projectedItem m qualifier? aliased item)
      (c.projectedItem m qualifier? aliased item) := by
  have named {a b : Sql} (hsql : Sql.Twin c.dialect a b) (name : String) :
      Sql.Twin c.dialect (a ++ .word " " :: Sql.identifier name)
        (b ++ .word " " :: Sql.identifier name) :=
    hsql.append (.cons .word (.identifier name))
  cases item with
  | raw sql =>
    apply (agree_raw m h.single qualifier?).bind
    intro _ _ hsql
    split
    · exact .pure (named hsql _)
    · exact .pure hsql
  | field key =>
    simp only [projectedItem]
    split
    · rename_i sql hsql
      obtain ⟨field, hfield, hcomputed⟩ := Option.bind_eq_some_iff.1 hsql
      exact (agree_raw m (confines_of_computed hm hfield hcomputed) qualifier?).bind
        fun _ _ hsql => .pure (named hsql _)
    · split
      · exact .pure (named (twin_column m key qualifier?) _)
      · exact .pure (twin_column m key qualifier?)

theorem agree_projectedFields {m : Member} (hm : c.ConfinesAll m.raws)
    (projection? : Option Projection) (qualifier? : Option String) (aliased : Bool)
    (h : c.ConfinesAll (projection?.toList.flatMap Projection.raws)) :
    Agree (Sql.Twin c.dialect) (c.projectedFields m projection? qualifier? aliased)
      (c.projectedFields m (projection?.map Projection.redacted) qualifier? aliased) := by
  have hraws := confinesAll_projectedItems m h
  have hitems : ∀ item ∈ (if projection?.isSome && qualifier?.isSome
      then withId m (projectedItems m projection?) else projectedItems m projection?),
      c.ConfinesAll item.raws := by
    intro item hitem
    split at hitem
    · unfold withId at hitem
      split at hitem
      · exact hraws item hitem
      · rcases List.mem_cons.1 hitem with rfl | hitem
        · exact .nil
        · exact hraws item hitem
    · exact hraws item hitem
  unfold projectedFields
  simp only [projectedItems_redacted, Option.isSome_map]
  exact (Agree.mapM (List.forall₂_same.2 fun item hitem =>
    agree_projectedItem hm qualifier? aliased (hitems item hitem))).bind fun _ _ hfields =>
      .pure (.commaList hfields)

/-! ## Joins -/

theorem agree_joinOf {m target : Member} (htarget : c.ConfinesAll target.raws) (relation : Relation)
    (parent? : Option String) (path : String) (filter? : Option Filter) (required : Bool)
    (h : c.ConfinesAll (filter?.toList.flatMap Filter.raws)) :
    Agree (Join.Twin c.dialect) (c.joinOf m target relation parent? path filter? required)
      (c.joinOf m target relation parent? path (filter?.map Filter.redacted) required) := by
  cases filter? with
  | none => exact .ok ⟨rfl, rfl, rfl, rfl, rfl, .nil⟩
  | some filter =>
    exact (agree_filterPredicate htarget (some filter) _ h).bind fun _ _ hcondition =>
      .pure ⟨rfl, rfl, rfl, rfl, rfl, hcondition⟩

/-- A related entity has no raw SQL but that of the registry. -/
theorem confinesAll_related {m target : Member} (hm : c.ConfinesAll m.raws) {key : String}
    (h : m.related key = .ok target) : c.ConfinesAll target.raws := by
  have hmember : ∃ name, m.registry.member name = .ok target := by
    cases hrelation : m.relation key with
    | error e => simp [Member.related, hrelation, bind, Except.bind] at h
    | ok relation =>
      rw [Member.related, hrelation] at h
      exact ⟨relation.entity, h⟩
  obtain ⟨name, hmember⟩ := hmember
  unfold Registry.member at hmember
  split at hmember
  · rename_i entity hentity
    cases hmember
    exact (hm.right.of_mem (Assoc.mem_values_of_get? hentity)).append hm.right
  · cases hmember

mutual

theorem agree_planProjection {m : Member} (hm : c.ConfinesAll m.raws) (parent? : Option String) :
    ∀ projection : Projection, c.ConfinesAll projection.raws →
    Agree (JoinPlan.Twin c.dialect) (c.planProjection m parent? projection)
      (c.planProjection m parent? projection.redacted)
  | .items _, _ => .pure .none
  | .map entries, h => agree_planEntries hm parent? entries h

theorem agree_planEntries {m : Member} (hm : c.ConfinesAll m.raws) (parent? : Option String) :
    ∀ entries : List (String × ProjectionEntry),
    c.ConfinesAll (ProjectionEntry.rawsOfEntries entries) →
    Agree (JoinPlan.Twin c.dialect) (c.planEntries m parent? entries)
      (c.planEntries m parent? (ProjectionEntry.redactedEntries entries))
  | [], _ => .pure .none
  | (key, entry) :: rest, h =>
    (agree_planEntry hm parent? key entry h.left).bind fun _ _ hfirst =>
      (agree_planEntries hm parent? rest h.right).bind fun _ _ hrest =>
        .pure (hfirst.append hrest)

theorem agree_planEntry {m : Member} (hm : c.ConfinesAll m.raws) (parent? : Option String)
    (key : String) : ∀ entry : ProjectionEntry, c.ConfinesAll entry.raws →
    Agree (JoinPlan.Twin c.dialect) (c.planEntry m parent? key entry)
      (c.planEntry m parent? key entry.redacted)
  | .flag false, _ => .pure .none
  | .flag true, _ => by
    simp only [planEntry, ProjectionEntry.redacted]
    split
    · exact .pure .none
    · rename_i relation _
      split
      · apply Agree.bind_same
        intro target htarget
        have ht := confinesAll_related hm htarget
        exact (agree_projectedFields ht none _ true .nil).bind fun _ _ hfields =>
          (agree_joinOf ht relation parent? _ none false .nil).bind fun _ _ hjoin =>
            .pure ⟨.cons hfields .nil, .cons hjoin .nil⟩
      · exact .pure ⟨.nil, .nil⟩
  | .relation query, h => by
    have hraws : c.ConfinesAll query.raws := h
    rw [RelationQuery.raws_eq] at hraws
    simp only [planEntry, ProjectionEntry.redacted]
    split
    · exact .pure .none
    · rename_i relation _
      split
      · apply Agree.bind_same
        intro target htarget
        have ht := confinesAll_related hm htarget
        simp only [RelationQuery.projection?_redacted, RelationQuery.filter?_redacted,
          RelationQuery.required_redacted]
        exact (agree_projectedFields ht _ _ true hraws.left).bind fun _ _ hfields =>
          (agree_joinOf ht relation parent? _ _ _ hraws.right).bind fun _ _ hjoin =>
            (agree_planRelation ht _ query h).bind fun _ _ hnested =>
              .pure (.append ⟨.cons hfields .nil, .cons hjoin .nil⟩ hnested)
      · exact .pure ⟨.nil, .nil⟩

theorem agree_planRelation {target : Member} (htarget : c.ConfinesAll target.raws) (path : String) :
    ∀ query : RelationQuery, c.ConfinesAll query.raws →
    Agree (JoinPlan.Twin c.dialect) (c.planRelation target path query)
      (c.planRelation target path query.redacted)
  | ⟨some projection, _, _, _, _, _⟩, h =>
    agree_planProjection htarget (some path) projection h.left
  | ⟨none, _, _, _, _, _⟩, _ => .pure .none

end

theorem agree_plan {m : Member} (hm : c.ConfinesAll m.raws) (projection? : Option Projection)
    (parent? : Option String) (h : c.ConfinesAll (projection?.toList.flatMap Projection.raws)) :
    Agree (JoinPlan.Twin c.dialect) (c.plan m projection? parent?)
      (c.plan m (projection?.map Projection.redacted) parent?) := by
  cases projection? with
  | none => exact .pure .none
  | some projection => exact agree_planProjection hm parent? projection (h.of_mem (.head []))

theorem selectsRelation_redacted (m : Member) (projection? : Option Projection) :
    selectsRelation m (projection?.map Projection.redacted) = selectsRelation m projection? := by
  match projection? with
  | none | some (.items _) => rfl
  | some (.map entries) =>
    simp only [Option.map_some, Projection.redacted, selectsRelation]
    induction entries with
    | nil => rfl
    | cons entry rest ih =>
      obtain ⟨key, entry⟩ := entry
      simp only [ProjectionEntry.redactedEntries, List.any_cons, ih,
        ProjectionEntry.isExcluded_redacted]

theorem rootQualifier?_redacted (m : Member) (projection? : Option Projection)
    (options : FindOptions) :
    rootQualifier? m (projection?.map Projection.redacted) options =
      rootQualifier? m projection? options := by
  simp only [rootQualifier?, selectsRelation_redacted]

/-! ## Statements -/

theorem agree_selection {m : Member} (hm : c.ConfinesAll m.raws) (projection? : Option Projection)
    (options : FindOptions) (h : c.ConfinesAll (projection?.toList.flatMap Projection.raws)) :
    Agree (Sql.Twin c.dialect) (c.selection m projection? options)
      (c.selection m (projection?.map Projection.redacted) options) := by
  unfold selection
  rw [rootQualifier?_redacted]
  exact (agree_projectedFields hm projection? _ false h).bind fun _ _ hfields =>
    (agree_plan hm projection? none h).bind fun _ _ hplan =>
      .pure (((Sql.Twin.cons .word (.commaList (.cons hfields hplan.fields))).append
        (.cons .word (.path _))).append hplan.tables)

mutual

theorem agree_orderTerm (m : Member) (qualifier? path? : Option String) (key : String) :
    ∀ term : OrderTerm,
    Agree (List.Forall₂ (Sql.Twin c.dialect)) (c.orderTerm m qualifier? path? key term)
      (c.orderTerm m qualifier? path? key term)
  | .direction direction => by
    have hsuffix : direction.sqlSuffix.toList.all Lexer.isPlain = true := by
      cases direction <;> decide
    refine .pure (.cons (.append ?_ (.single (.word hsuffix))) .nil)
    split
    · exact .identifier key
    · split
      · exact twin_column m key _
      · exact .path _
  | .nested terms =>
    Agree.bind_same fun target _ => agree_orderTerms target qualifier? _ terms

theorem agree_orderTerms (m : Member) (qualifier? path? : Option String) :
    ∀ terms : List (String × OrderTerm),
    Agree (List.Forall₂ (Sql.Twin c.dialect)) (c.orderTerms m qualifier? path? terms)
      (c.orderTerms m qualifier? path? terms)
  | [] => .pure .nil
  | (key, term) :: rest =>
    (agree_orderTerm m qualifier? path? key term).bind fun _ _ hfirst =>
      (agree_orderTerms m qualifier? path? rest).bind fun _ _ hrest =>
        .pure (List.rel_append hfirst hrest)

end

theorem agree_orderClause (m : Member) (order? : Option OrderBy) (qualifier? : Option String) :
    Agree (Sql.Twin c.dialect) (c.orderClause m order? qualifier?)
      (c.orderClause m order? qualifier?) := by
  match order? with
  | none | some [] => exact .pure .nil
  | some (term :: terms) =>
    exact (agree_orderTerms m qualifier? none (term :: terms)).bind fun _ _ hterms =>
      .pure (.cons .word (.commaList hterms))

theorem agree_groupClause {m : Member} (hm : c.ConfinesAll m.raws) (keys : List String)
    (qualifier? : Option String) :
    Agree (Sql.Twin c.dialect) (c.groupClause m keys qualifier?)
      (c.groupClause m keys qualifier?) := by
  unfold groupClause
  split
  · exact .pure .nil
  · exact (Agree.mapM (List.forall₂_same.2 fun key _ =>
      agree_columnReference hm key qualifier?)).bind fun _ _ hcolumns =>
        .pure (.cons .word (.commaList hcolumns))

theorem twin_page {d : Dialect} (limit? skip? : Option Nat) :
    Sql.Twin d (d.page limit? skip?) (d.page limit? skip?) := by
  have behind {keyword number : String} (hkeyword : keyword.toList.all Lexer.isPlain = true)
      (hnumber : d.Complete number.toList) :
      Sql.Twin d [.word (keyword ++ number)] [.word (keyword ++ number)] := by
    refine .single (.same ?_)
    rw [Dialect.renderPiece, String.toList_append]
    exact (Dialect.Complete.of_isPlain d hkeyword).append hnumber
  have hunbounded {text : String} (h : d.unboundedLimit? = some text) :
      d.Complete text.toList := by
    cases d with
    | postgres => cases h
    | mysql | mariadb =>
      cases h
      exact .of_isPlain _ (by decide)
    | sqlite =>
      cases h
      exact .of_minus _ (by decide) (by decide)
  refine .append ?_ ?_
  · split
    · exact behind (by decide) (.of_isSigned d (Lexer.isSigned_nat _))
    · exact behind (by decide) (hunbounded ‹_›)
    · exact .nil
  · cases skip? with
    | none => exact .nil
    | some n => exact behind (by decide) (.of_isSigned d (Lexer.isSigned_nat n))

theorem agree_criteria {m : Member} (hm : c.ConfinesAll m.raws) (query : Query)
    (options : FindOptions) (h : c.ConfinesAll query.raws) :
    Agree (Sql.Twin c.dialect) (c.criteria m query options)
      (c.criteria m query.redacted options) := by
  unfold criteria
  simp only [Query.redacted, rootQualifier?_redacted]
  exact (agree_criterionClause hm query.criterion? _ h.left.right).bind fun _ _ hrows =>
    (agree_groupClause hm query.group _).bind fun _ _ hgroup =>
      (agree_filterClause hm query.having? _ h.right).bind fun _ _ hhaving =>
        (agree_orderClause m query.order? _).bind fun _ _ horder =>
          .pure ((((hrows.append hgroup).append hhaving).append horder).append
            (twin_page query.limit? query.skip?))

theorem agree_find {m : Member} (hm : c.ConfinesAll m.raws) (query : Query) (options : FindOptions)
    (h : c.ConfinesAll query.raws) :
    Agree (Sql.Twin c.dialect) (c.find m query options) (c.find m query.redacted options) :=
  (agree_selection hm query.projection? options h.left.left).bind fun _ _ hselection =>
    (agree_criteria hm query options h).bind fun _ _ hcriteria =>
      .pure (hselection.append hcriteria)

theorem agree_count {m : Member} (hm : c.ConfinesAll m.raws) (query : Query)
    (options : FindOptions) (h : c.ConfinesAll query.raws) :
    Agree (Sql.Twin c.dialect) (c.count m query options) (c.count m query.redacted options) := by
  have hcount : c.ConfinesAll countProjection.raws := by
    intro sql hsql
    rw [List.mem_singleton.1 hsql]
    exact Confines.of_literal (.of_isPlain _ (by decide))
  refine agree_find hm _ options ?_
  exact ((hcount.append .nil).append h.left.right).append h.right

end Compiler

end EntitySql
