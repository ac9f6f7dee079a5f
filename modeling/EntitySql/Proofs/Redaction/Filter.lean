import EntitySql.Proofs.Redaction.Input
import EntitySql.Proofs.Redaction.Twin
/-!
# Filters with and without their texts

The text of a caller enters a predicate as the content of a literal and nowhere else: a filter and
its redacted form compile to twins, or fail alike. Raw SQL is taken to be confined, which says that
its text leaves no quotation open.
-/

namespace EntitySql

namespace Compiler

/-- A raw fragment whose text, wherever it stands, leaves no quotation and no comment open. -/
def Confines (c : Compiler) (sql : RawSql) : Prop :=
  ∀ (registry : Registry) (qualifier text : String),
    c.rawText registry sql qualifier = .ok text → c.dialect.Complete text.toList

/-- Several confined fragments. -/
def ConfinesAll (c : Compiler) (sqls : List RawSql) : Prop := ∀ sql ∈ sqls, c.Confines sql

variable {c : Compiler}

theorem Confines.of_literal {text : String} (h : c.dialect.Complete text.toList) :
    c.Confines (.literal text) := by
  intro registry qualifier result hresult
  cases hresult
  exact h

namespace ConfinesAll

theorem nil : c.ConfinesAll [] := fun _ h => absurd h List.not_mem_nil

theorem single {sql : RawSql} (h : c.ConfinesAll [sql]) : c.Confines sql := h sql (.head [])

theorem left {first second : List RawSql} (h : c.ConfinesAll (first ++ second)) :
    c.ConfinesAll first := fun sql hsql => h sql (List.mem_append_left second hsql)

theorem right {first second : List RawSql} (h : c.ConfinesAll (first ++ second)) :
    c.ConfinesAll second := fun sql hsql => h sql (List.mem_append_right first hsql)

theorem append {first second : List RawSql} (hfirst : c.ConfinesAll first)
    (hsecond : c.ConfinesAll second) : c.ConfinesAll (first ++ second) := fun sql hsql =>
  (List.mem_append.1 hsql).elim (hfirst sql) (hsecond sql)

theorem of_mem {α : Type} {f : α → List RawSql} {list : List α} (h : c.ConfinesAll (list.flatMap f))
    {a : α} (ha : a ∈ list) : c.ConfinesAll (f a) := fun sql hsql =>
  h sql (List.mem_flatMap.2 ⟨a, ha, hsql⟩)

end ConfinesAll

/-! ## Values and columns -/

theorem agree_raw (m : Member) {sql : RawSql} (h : c.Confines sql) (qualifier? : Option String) :
    Agree (Sql.Twin c.dialect) (c.raw m sql qualifier?) (c.raw m sql qualifier?) :=
  Agree.bind_same fun _ htext => .pure (.single (.same (h _ _ _ htext)))

mutual

theorem agree_escape : ∀ v : Value, c.ConfinesAll v.raws →
    Agree (Sql.Twin c.dialect) (c.escape v) (c.escape v.redacted)
  | .null, _ => .pure (.single .word)
  | .bool true, _ | .bool false, _ => .pure (.single .word)
  | .int n, _ => .pure (.single (.same (.of_isSigned _ (Lexer.isSigned_int n))))
  | .float x, _ => by
    refine .pure (.single ?_)
    split
    · exact .same (.of_isSigned _ (Lexer.isSigned_toText ‹_›))
    · exact .word (by decide)
  | .text s, _ => .pure (.single (.literal s ""))
  | .blob content, _ => .pure (.single (.bytes content))
  | .json document, _ => .pure (.single (.literal document.toText document.toText))
  | .list items, h => (agree_escapeAll items h).bind fun _ _ hitems => .pure (.commaList hitems)
  | .raw sql, h => Agree.bind_same fun _ htext => .pure (.single (.same (h.single _ _ _ htext)))

theorem agree_escapeAll : ∀ items : List Value, c.ConfinesAll (Value.rawsOfItems items) →
    Agree (List.Forall₂ (Sql.Twin c.dialect)) (c.escapeAll items)
      (c.escapeAll (Value.redactedItems items))
  | [], _ => .pure .nil
  | item :: rest, h =>
    (agree_escape item h.left).bind fun _ _ hitem =>
      (agree_escapeAll rest h.right).bind fun _ _ hrest => .pure (.cons hitem hrest)

end

mutual

theorem agree_value (m : Member) (qualifier? : Option String) : ∀ v : Value,
    c.ConfinesAll v.raws →
    Agree (Sql.Twin c.dialect) (c.value m qualifier? v) (c.value m qualifier? v.redacted)
  | .raw _, h => agree_raw m h.single qualifier?
  | .list items, h =>
    (agree_values m qualifier? items h).bind fun _ _ hitems => .pure (.commaList hitems)
  | .null, h => agree_escape .null h
  | .bool b, h => agree_escape (.bool b) h
  | .int n, h => agree_escape (.int n) h
  | .float x, h => agree_escape (.float x) h
  | .text s, h => agree_escape (.text s) h
  | .blob content, h => agree_escape (.blob content) h
  | .json document, h => agree_escape (.json document) h

theorem agree_values (m : Member) (qualifier? : Option String) : ∀ items : List Value,
    c.ConfinesAll (Value.rawsOfItems items) →
    Agree (List.Forall₂ (Sql.Twin c.dialect)) (c.values m qualifier? items)
      (c.values m qualifier? (Value.redactedItems items))
  | [], _ => .pure .nil
  | item :: rest, h =>
    (agree_value m qualifier? item h.left).bind fun _ _ hitem =>
      (agree_values m qualifier? rest h.right).bind fun _ _ hrest => .pure (.cons hitem hrest)

end

theorem twin_column {d : Dialect} (m : Member) (key : String) (qualifier? : Option String) :
    Sql.Twin d (column m key qualifier?) (column m key qualifier?) :=
  (Sql.Twin.qualifier _).append (.identifier _)

/-- The computed fields of an entity are among its raw SQL. -/
theorem confines_of_computed {m : Member} (hm : c.ConfinesAll m.raws) {key : String} {field : Field}
    (hfield : m.entity.fields.get? key = some field) {sql : RawSql}
    (hsql : field.computed? = some sql) : c.Confines sql := by
  have hmem : field ∈ m.entity.fields.values := Assoc.mem_values_of_get? hfield
  exact hm.left.of_mem hmem sql (by simp [Field.raws, hsql])

theorem agree_columnReference {m : Member} (hm : c.ConfinesAll m.raws) (key : String)
    (qualifier? : Option String) :
    Agree (Sql.Twin c.dialect) (c.columnReference m key qualifier?)
      (c.columnReference m key qualifier?) := by
  unfold columnReference
  split
  · rename_i field hfield
    split
    · rename_i sql hsql
      exact agree_raw m (confines_of_computed hm hfield hsql) qualifier?
    · exact .pure (twin_column m key qualifier?)
  · split
    · split
      · exact .pure ((Sql.Twin.identifier _).append
          (.cons .word (.identifier _)))
      · exact .pure (.path key)
    · exact .pure ((Sql.Twin.qualifier _).append (.path key))

theorem twin_textSearch (m : Member) (search : TextSearch) (qualifier? : Option String) :
    Sql.Twin c.dialect (c.textSearch m search qualifier?)
      (c.textSearch m search.redacted qualifier?) := by
  have hcolumns (d : Dialect) : List.Forall₂ (Sql.Twin d)
      (search.fields.map fun key => column m key qualifier?)
      (search.fields.map fun key => column m key qualifier?) :=
    List.forall₂_same.2 fun _ h => by
      obtain ⟨key, _, rfl⟩ := List.mem_map.1 h
      exact twin_column m key qualifier?
  unfold textSearch
  cases c.dialect with
  | postgres =>
    have hseparator : Sql.Twin .postgres [.word " || ", .standardLiteral " ", .word " || "]
        [.word " || ", .standardLiteral " ", .word " || "] :=
      .cons .word (.cons .blankLiteral (.single .word))
    exact .cons .word ((Sql.Twin.intercalate hseparator (hcolumns _)).append
      (.cons .word (.cons (.literal _ _) (.single .word))))
  | mysql | mariadb =>
    exact .cons .word ((Sql.Twin.commaList (hcolumns _)).append
      (.cons .word (.cons (.literal _ _) (.single .word))))
  | sqlite =>
    refine Sql.Twin.append ?_ (.cons .word (.single (.literal _ _)))
    cases qualifier? with
    | none => exact .path _
    | some name => exact .identifier _

/-! ## Comparisons -/

theorem agree_patternOf (key : String) (v : Value) :
    Agree (fun _ _ => True) (patternOf key v) (patternOf key v.redacted) := by
  cases v with
  | text | int | float => exact .pure trivial
  | null | bool | blob | json | list | raw => exact .error _

theorem twin_likeAnyCase {d : Dialect} {a b : Sql} (h : Sql.Twin d a b) (first second : String) :
    Sql.Twin d (d.likeAnyCase a first) (d.likeAnyCase b second) := by
  cases d with
  | postgres => exact h.append (.cons .word (.single (.literal first second)))
  | mysql | mariadb | sqlite =>
    exact .cons .word
      (h.append (.cons .word (.single (.literal _ _))))

theorem isPlain_regexOperator (d : Dialect) :
    (" " ++ d.regexOperator ++ " ").toList.all Lexer.isPlain = true := by
  cases d <;> decide

section Columns

variable {m : Member} {key : String} {qualifier? : Option String} {a b : Sql} {v : Value}
  (hcolumn : Sql.Twin c.dialect a b)

include hcolumn

/-- A value behind a sign. -/
theorem agree_behind (hv : c.ConfinesAll v.raws) {sign : String}
    (hsign : sign.toList.all Lexer.isPlain = true) :
    Agree (Predicate.Twin c.dialect)
      (do return .ofAtom (a ++ .word sign :: (← c.value m qualifier? v)))
      (do return .ofAtom (b ++ .word sign :: (← c.value m qualifier? v.redacted))) :=
  (agree_value m qualifier? v hv).bind fun _ _ hvalue =>
    .pure (.ofAtom (hcolumn.append (.cons (.word hsign) hvalue)))

/-- A test without a value. -/
theorem agree_tested {test : String} (htest : test.toList.all Lexer.isPlain = true) :
    Agree (Predicate.Twin c.dialect) (.ok (.ofAtom (a ++ [.word test])))
      (.ok (.ofAtom (b ++ [.word test]))) :=
  .ok (.ofAtom (hcolumn.append (.single (.word htest))))

/-- A list of values is empty in both forms or in neither. -/
theorem agree_listed {sign empty : String} (hsign : sign.toList.all Lexer.isPlain = true)
    (hempty : empty.toList.all Lexer.isPlain = true) (items : List Value)
    (hitems : c.ConfinesAll (Value.rawsOfItems items)) :
    Agree (Predicate.Twin c.dialect)
      (if items.isEmpty then pure (.ofAtom [.word empty])
        else c.values m qualifier? items >>= fun sqls =>
          pure (.ofAtom (a ++ .word sign :: Sql.commaList sqls ++ [.word ")"])))
      (if (Value.redactedItems items).isEmpty then pure (.ofAtom [.word empty])
        else c.values m qualifier? (Value.redactedItems items) >>= fun sqls =>
          pure (.ofAtom (b ++ .word sign :: Sql.commaList sqls ++ [.word ")"]))) := by
  simp only [Value.isEmpty_redactedItems]
  split
  · exact .pure (.ofAtom (.single (.word hempty)))
  · exact (agree_values m qualifier? items hitems).bind fun _ _ hsqls =>
      .pure (.ofAtom ((hcolumn.append (.cons (.word hsign) (.commaList hsqls))).append
        (.single .word)))

theorem twin_like {sign : String} (hsign : sign.toList.all Lexer.isPlain = true) (s t : String) :
    Sql.Twin c.dialect (a ++ [.word sign, .literal s]) (b ++ [.word sign, .literal t]) :=
  hcolumn.append (.cons (.word hsign) (.single (.literal s t)))

omit hcolumn in
/-- A pattern may have any text, as long as there is one. -/
theorem agree_patterned (before after : String) {f g : String → Sql}
    (hfg : ∀ s t, Sql.Twin c.dialect (f s) (g t)) :
    Agree (Predicate.Twin c.dialect)
      ((patternOf key v >>= fun s => pure (before ++ s ++ after)) >>= fun s =>
        pure (.ofAtom (f s)))
      ((patternOf key v.redacted >>= fun s => pure (before ++ s ++ after)) >>= fun s =>
        pure (.ofAtom (g s))) :=
  ((agree_patternOf key v).bind fun _ _ _ => Agree.pure trivial).bind fun s t (_ : True) =>
    .pure (.ofAtom (hfg s t))

end Columns

theorem agree_comparison {m : Member} (hm : c.ConfinesAll m.raws) (key : String)
    (qualifier? : Option String) (operator : FieldOperator) {v : Value}
    (hv : c.ConfinesAll v.raws) :
    Agree (Predicate.Twin c.dialect) (c.comparison m key qualifier? operator v)
      (c.comparison m key qualifier? operator v.redacted) := by
  apply (agree_columnReference hm key qualifier?).bind
  intro a b hcolumn
  cases operator with
  | equal | notEqual =>
    simp only [Value.isNull_redacted]
    split
    · exact agree_tested hcolumn (by decide)
    · exact agree_behind hcolumn hv (by decide)
  | less | lessOrEqual | greater | greaterOrEqual => exact agree_behind hcolumn hv (by decide)
  | startsWith | endsWith | includes | like =>
    exact agree_patterned _ _ (twin_like hcolumn (by decide))
  | startsWithAnyCase | endsWithAnyCase | includesAnyCase | likeAnyCase =>
    exact agree_patterned _ _ (twin_likeAnyCase hcolumn)
  | oneOf | noneOf =>
    cases v with
    | list items => exact agree_listed hcolumn (by decide) (by decide) items hv
    | raw sql => exact agree_listed hcolumn (by decide) (by decide) [.raw sql] (hv.append .nil)
    | text s => exact agree_listed hcolumn (by decide) (by decide) [.text s] .nil
    | null | bool | int | float | blob | json =>
      exact agree_listed hcolumn (by decide) (by decide) [_] .nil
  | regex => exact agree_patterned _ _ (twin_like hcolumn (isPlain_regexOperator c.dialect))
  | negation => exact .error _

/-! ## Conditions -/

mutual

theorem agree_condition {m : Member} (hm : c.ConfinesAll m.raws) (key : String)
    (qualifier? : Option String) : ∀ condition : Condition, c.ConfinesAll condition.raws →
    Agree (Predicate.Twin c.dialect) (c.condition m key qualifier? condition)
      (c.condition m key qualifier? condition.redacted)
  | .value v, h => by
    simp only [condition, Condition.redacted, Value.defaultOperator_redacted]
    exact agree_comparison hm key qualifier? _ h
  | .operators entries, h =>
    (agree_operators hm key qualifier? entries h).bind fun _ _ hparts =>
      .pure (.joinGrouped true false hparts)

theorem agree_operators {m : Member} (hm : c.ConfinesAll m.raws) (key : String)
    (qualifier? : Option String) : ∀ entries : List (String × OperatorArgument),
    c.ConfinesAll (OperatorArgument.rawsOfEntries entries) →
    Agree (List.Forall₂ (Predicate.Twin c.dialect)) (c.operators m key qualifier? entries)
      (c.operators m key qualifier? (OperatorArgument.redactedEntries entries))
  | [], _ => .pure .nil
  | (name, argument) :: rest, h =>
    (agree_operator hm key qualifier? name argument h.left).bind fun _ _ hfirst =>
      (agree_operators hm key qualifier? rest h.right).bind fun _ _ hrest =>
        .pure (.cons hfirst hrest)

theorem agree_operator {m : Member} (hm : c.ConfinesAll m.raws) (key : String)
    (qualifier? : Option String) (name : String) : ∀ argument : OperatorArgument,
    c.ConfinesAll argument.raws →
    Agree (Predicate.Twin c.dialect) (c.operator m key qualifier? name argument)
      (c.operator m key qualifier? name argument.redacted)
  | .value v, h => by
    apply Agree.bind_same
    intro op _
    have hplain := agree_comparison hm key qualifier? op h
    have hdefault := agree_comparison hm key qualifier? (Condition.defaultOperator v) h
    cases op with
    | negation =>
      simp only [Value.defaultOperator_redacted]
      exact hdefault.bind fun _ _ hinner => .pure hinner.parenthesized.negated
    | equal | notEqual | less | lessOrEqual | greater | greaterOrEqual | startsWith
      | startsWithAnyCase | endsWith | endsWithAnyCase | includes | includesAnyCase | like
      | likeAnyCase | oneOf | noneOf | regex => exact hplain
  | .condition inner, h => by
    apply Agree.bind_same
    intro op _
    cases op with
    | negation =>
      exact (agree_condition hm key qualifier? inner h).bind fun _ _ hinner =>
        .pure hinner.parenthesized.negated
    | equal | notEqual | less | lessOrEqual | greater | greaterOrEqual | startsWith
      | startsWithAnyCase | endsWith | endsWithAnyCase | includes | includesAnyCase | like
      | likeAnyCase | oneOf | noneOf | regex => exact .error _

end

/-! ## Entries and groups -/

theorem twin_groupPredicate {d : Dialect} (connective : Connective) (grouped : Bool)
    {ps qs : List Predicate} (h : List.Forall₂ (Predicate.Twin d) ps qs) :
    Predicate.Twin d (groupPredicate connective grouped ps)
      (groupPredicate connective grouped qs) := by
  have hjoined := Predicate.Twin.joinGrouped (grouped || connective.isNegated)
    connective.isDisjunctive h
  unfold groupPredicate
  cases h with
  | nil => exact .nil
  | cons =>
    simp only [List.isEmpty_cons, Bool.false_eq_true, if_false]
    split
    · exact hjoined.negated
    · exact hjoined

theorem agree_rawPredicate (m : Member) (qualifier? : Option String) {sql : RawSql}
    (h : c.Confines sql) :
    Agree (Predicate.Twin c.dialect) (c.rawPredicate m qualifier? sql)
      (c.rawPredicate m qualifier? sql) := by
  apply Agree.bind_same
  intro text htext
  split
  · exact .pure .nil
  · exact .pure (.ofAtom (.single (.same (h _ _ _ htext))))

/-- Twins are both left out of a list, or both stand in it. -/
theorem twin_skipEmpty {d : Dialect} {p q : Predicate} (h : Predicate.Twin d p q)
    {ps qs : List Predicate} (hrest : List.Forall₂ (Predicate.Twin d) ps qs) :
    List.Forall₂ (Predicate.Twin d) (if p.isEmpty then ps else p :: ps)
      (if q.isEmpty then qs else q :: qs) := by
  rw [h.isEmpty_eq]
  split
  · exact hrest
  · exact .cons h hrest

mutual

theorem agree_entries {m : Member} (hm : c.ConfinesAll m.raws) (qualifier? : Option String)
    (grouped : Bool) : ∀ list : List (String × FilterEntry),
    c.ConfinesAll (FilterEntry.rawsOfEntries list) →
    Agree (List.Forall₂ (Predicate.Twin c.dialect)) (c.entries m qualifier? grouped list)
      (c.entries m qualifier? grouped (FilterEntry.redactedEntries list))
  | [], _ => .pure .nil
  | (key, value) :: rest, h =>
    (agree_entry hm qualifier? grouped key value h.left).bind fun _ _ hfirst =>
      (agree_entries hm qualifier? grouped rest h.right).bind fun _ _ hrest =>
        .pure (twin_skipEmpty hfirst hrest)

theorem agree_entry {m : Member} (hm : c.ConfinesAll m.raws) (qualifier? : Option String)
    (grouped : Bool) (key : String) : ∀ value : FilterEntry, c.ConfinesAll value.raws →
    Agree (Predicate.Twin c.dialect) (c.entry m qualifier? grouped key value)
      (c.entry m qualifier? grouped key value.redacted)
  | .subquery sql, h => by
    have hraw := agree_raw m h.single qualifier?
    simp only [entry, FilterEntry.redacted]
    split
    · exact hraw.bind fun _ _ hsql =>
        .pure (.ofAtom (.cons .word (hsql.append (.single .word))))
    · split
      · exact hraw.bind fun _ _ hsql =>
          .pure (.ofAtom (.cons .word (hsql.append (.single .word))))
      · exact .error _
  | .search request, _ => by
    simp only [entry, FilterEntry.redacted]
    split
    · exact .pure (.ofAtom (twin_textSearch m request qualifier?))
    · exact .error _
  | .group items, h => by
    simp only [entry, FilterEntry.redacted, FilterItem.length_redactedItems]
    split
    · exact .error _
    · exact (agree_groupItems hm qualifier? _ items h).bind fun _ _ hparts =>
        .pure (twin_groupPredicate _ grouped hparts)
  | .field condition, h => by
    simp only [entry, FilterEntry.redacted]
    split
    · exact .error _
    · exact agree_condition hm key qualifier? condition h

theorem agree_groupItems {m : Member} (hm : c.ConfinesAll m.raws) (qualifier? : Option String)
    (grouped : Bool) : ∀ items : List FilterItem, c.ConfinesAll (FilterItem.rawsOfItems items) →
    Agree (List.Forall₂ (Predicate.Twin c.dialect)) (c.groupItems m qualifier? grouped items)
      (c.groupItems m qualifier? grouped (FilterItem.redactedItems items))
  | [], _ => .pure .nil
  | item :: rest, h =>
    (agree_groupItem hm qualifier? grouped item h.left).bind fun _ _ hfirst =>
      (agree_groupItems hm qualifier? grouped rest h.right).bind fun _ _ hrest =>
        .pure (twin_skipEmpty hfirst hrest)

theorem agree_groupItem {m : Member} (hm : c.ConfinesAll m.raws) (qualifier? : Option String)
    (grouped : Bool) : ∀ item : FilterItem, c.ConfinesAll item.raws →
    Agree (Predicate.Twin c.dialect) (c.groupItem m qualifier? grouped item)
      (c.groupItem m qualifier? grouped item.redacted)
  | .raw _, h => agree_rawPredicate m qualifier? h.single
  | .filter list, h => by
    have hlength : (FilterEntry.redactedEntries list).length = list.length :=
      Filter.length_redacted list
    simp only [groupItem, FilterItem.redacted, hlength]
    exact (agree_entries hm qualifier? _ list h).bind fun _ _ hparts =>
      .pure (.joinGrouped grouped false hparts)

end

/-! ## Clauses -/

/-- The guard against deleted rows depends on the keys of a filter alone. -/
theorem softDeleteGuard_redacted (m : Member) (filter? : Option Filter) (options : FilterOptions) :
    softDeleteGuard m (filter?.map Filter.redacted) options =
      Filter.redacted (softDeleteGuard m filter? options) := by
  unfold softDeleteGuard
  cases m.entity.softDelete? with
  | none => rfl
  | some key =>
    have hkey : (filter?.map Filter.redacted).any (Entries.has key) =
        filter?.any (Entries.has key) := by
      cases filter? with
      | none => rfl
      | some filter => exact Filter.has_redacted key filter
    simp only [hkey]
    split <;> rfl

theorem confinesAll_softDeleteGuard (m : Member) (filter? : Option Filter)
    (options : FilterOptions) :
    c.ConfinesAll (Filter.raws (softDeleteGuard m filter? options)) := by
  unfold softDeleteGuard
  split
  · exact .nil
  · split
    · exact .nil
    · exact .nil

theorem agree_filterPredicate {m : Member} (hm : c.ConfinesAll m.raws) (filter? : Option Filter)
    (options : FilterOptions) (h : c.ConfinesAll (filter?.toList.flatMap Filter.raws)) :
    Agree (Predicate.Twin c.dialect) (c.filterPredicate m filter? options)
      (c.filterPredicate m (filter?.map Filter.redacted) options) := by
  have hlist : (filter?.map Filter.redacted).getD [] ++
      softDeleteGuard m (filter?.map Filter.redacted) options =
      Filter.redacted (filter?.getD [] ++ softDeleteGuard m filter? options) := by
    rw [Filter.redacted_append, softDeleteGuard_redacted]
    cases filter? <;> rfl
  have hraws : c.ConfinesAll
      (Filter.raws (filter?.getD [] ++ softDeleteGuard m filter? options)) := by
    rw [Filter.raws_append]
    refine .append ?_ (confinesAll_softDeleteGuard m filter? options)
    cases filter? with
    | none => exact .nil
    | some filter => exact h.of_mem (.head [])
  unfold filterPredicate
  simp only [hlist, Filter.length_redacted]
  exact (agree_entries hm options.qualifier? _ _ hraws).bind fun _ _ hparts =>
    .pure (.joinGrouped options.grouped false hparts)

theorem twin_clauseOf {d : Dialect} (clause : Clause) {p q : Predicate} (h : Predicate.Twin d p q) :
    Sql.Twin d (clauseOf clause p) (clauseOf clause q) := by
  unfold clauseOf
  rw [h.isEmpty_eq]
  split
  · exact .nil
  · cases clause with
    | «where» | having => exact .cons .word h.toSql
    | bare => exact h.toSql

theorem agree_filterClause {m : Member} (hm : c.ConfinesAll m.raws) (filter? : Option Filter)
    (options : FilterOptions) (h : c.ConfinesAll (filter?.toList.flatMap Filter.raws)) :
    Agree (Sql.Twin c.dialect) (c.filterClause m filter? options)
      (c.filterClause m (filter?.map Filter.redacted) options) :=
  (agree_filterPredicate hm filter? options h).bind fun _ _ hp => .pure (twin_clauseOf _ hp)

theorem agree_criterionClause {m : Member} (hm : c.ConfinesAll m.raws)
    (criterion? : Option Criterion) (options : FilterOptions)
    (h : c.ConfinesAll (criterion?.toList.flatMap Criterion.raws)) :
    Agree (Sql.Twin c.dialect) (c.criterionClause m criterion? options)
      (c.criterionClause m (criterion?.map Criterion.redacted) options) := by
  have hfilter : (criterion?.map Criterion.redacted).map (filterOf m) =
      (criterion?.map (filterOf m)).map Filter.redacted := by
    cases criterion? with
    | none => rfl
    | some criterion => cases criterion <;> rfl
  have hraws : c.ConfinesAll ((criterion?.map (filterOf m)).toList.flatMap Filter.raws) := by
    cases criterion? with
    | none => exact .nil
    | some criterion =>
      have hcriterion : c.ConfinesAll criterion.raws := h.of_mem (.head [])
      cases criterion with
      | id v => exact (hcriterion.append .nil).append .nil
      | filter entries => exact hcriterion.append .nil
  unfold criterionClause
  rw [hfilter]
  exact agree_filterClause hm _ options hraws

end Compiler

end EntitySql
