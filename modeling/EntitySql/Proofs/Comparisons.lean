import EntitySql.Compile.Filter
import EntitySql.Proofs.Ensures
/-!
# Comparisons in filters

An entry of a filter may stand at its top level or inside of groups, and a comparison may stand inside of
negations. Wherever it stands, `Compiler.exists_comparesColumn` finds it in the predicate of the whole, about the
column to which the key refers. Whether it can be written at all does not depend on that column.
-/

namespace EntitySql

/-! ## Places in filters -/

/-- Whether an entry stands in a filter, at its top level or inside of groups. -/
inductive Filter.Holds (key : String) (value : FilterEntry) : Filter → Prop
  | entry {list : Filter} (h : (key, value) ∈ list) : Holds key value list
  | group {list inner : Filter} {name : String} {items : List FilterItem}
      (hgroup : (name, .group items) ∈ list) (hitem : .filter inner ∈ items) (h : Holds key value inner) :
      Holds key value list

theorem Filter.Holds.append {key : String} {value : FilterEntry} {list : Filter} (h : list.Holds key value)
    (other : Filter) : Filter.Holds key value (list ++ other) := by
  cases h with
  | entry h => exact .entry (List.mem_append_left _ h)
  | group hgroup hitem h => exact .group (List.mem_append_left _ hgroup) hitem h

/-- Whether a condition compares its field with a value by an operator, be it inside of negations. -/
inductive Condition.Compares (operator : FieldOperator) (v : Value) : Condition → Prop
  | value (h : defaultOperator v = operator) : Compares operator v (.value v)
  | operator {entries : List (String × OperatorArgument)} {name : String} (h : (name, .value v) ∈ entries)
      (hname : FieldOperator.ofKey name = .ok operator) (hoperator : operator ≠ .negation) :
      Compares operator v (.operators entries)
  | denied {entries : List (String × OperatorArgument)} {name : String} (h : (name, .value v) ∈ entries)
      (hname : FieldOperator.ofKey name = .ok .negation) (hoperator : defaultOperator v = operator) :
      Compares operator v (.operators entries)
  | negation {entries : List (String × OperatorArgument)} {name : String} {inner : Condition}
      (h : (name, .condition inner) ∈ entries) (hinner : Compares operator v inner) :
      Compares operator v (.operators entries)

namespace Predicate

variable {t : Token} {p : Predicate} {ps : List Predicate}

theorem mem_join (disjunctive : Bool) (hp : p ∈ ps) (ht : t ∈ p) : t ∈ join disjunctive ps := by
  induction ps with
  | nil => cases hp
  | cons first rest ih =>
    cases rest with
    | nil =>
      obtain rfl := List.mem_singleton.1 hp
      simpa [join] using ht
    | cons second rest =>
      have hjoin : join disjunctive (first :: second :: rest) =
          first ++ (if disjunctive then Token.disjunction else Token.conjunction) ::
            join disjunctive (second :: rest) := rfl
      rw [hjoin]
      rcases List.mem_cons.1 hp with rfl | hp
      · exact List.mem_append_left _ ht
      · exact List.mem_append_right _ (.tail _ (ih hp))

theorem mem_parenthesized (ht : t ∈ p) : t ∈ parenthesized p :=
  .tail _ (List.mem_append_left _ ht)

theorem mem_joinGrouped (grouped disjunctive : Bool) (hp : p ∈ ps) (ht : t ∈ p) :
    t ∈ joinGrouped grouped disjunctive ps := by
  rw [joinGrouped]
  split
  · exact mem_parenthesized (mem_join disjunctive hp ht)
  · exact mem_join disjunctive hp ht

end Predicate

namespace Compiler

variable {c : Compiler} {m : Member} {key : String} {qualifier? : Option String}

/-! ## Comparisons -/

/-- How the comparison of a column is written. Membership in no values looks at no column. -/
inductive ComparesColumn (column : Sql) (v : Value) : Sql → Prop
  | plain (rest : Sql) : ComparesColumn column v (column ++ rest)
  | lowered (rest : Sql) : ComparesColumn column v (.word "LOWER(" :: column ++ .word ") LIKE " :: rest)
  | none (text : String) (h : v = .list []) : ComparesColumn column v [.word text]

/-- Whether the predicate is one comparison of the column. -/
def IsComparison (column : Sql) (v : Value) (p : Predicate) : Prop :=
  ∃ sql, p = .ofAtom sql ∧ ComparesColumn column v sql

theorem IsComparison.plain (column : Sql) (v : Value) (rest : Sql) :
    IsComparison column v (.ofAtom (column ++ rest)) := ⟨_, rfl, .plain rest⟩

theorem isComparison_likeAnyCase (d : Dialect) (column : Sql) (v : Value) (pattern : String) :
    IsComparison column v (.ofAtom (d.likeAnyCase column pattern)) := by
  cases d with
  | postgres => exact .plain column v _
  | mysql | mariadb | sqlite => exact ⟨_, rfl, .lowered _⟩

/-- A list of values is compared with the column unless it is empty. -/
theorem ensures_listed {column : Sql} {v : Value} {items : List Value} (sign empty : String)
    (hitems : items = [] → v = .list []) :
    Ensures (IsComparison column v)
      (if items.isEmpty then return .ofAtom [.word empty]
      else do
        let sqls ← c.values m qualifier? items
        return .ofAtom (column ++ .word sign :: Sql.commaList sqls ++ [.word ")"])) := by
  split
  · rename_i hempty
    exact .pure ⟨_, rfl, .none empty (hitems (List.isEmpty_iff.1 hempty))⟩
  · refine .bind_any fun sqls => .pure ?_
    rw [List.append_assoc]
    exact .plain column v _

/-- A comparison is one atom, in which the column stands to which the key refers. -/
theorem ensures_isComparison {column : Sql} (hcolumn : c.columnReference m key qualifier? = .ok column)
    (operator : FieldOperator) (v : Value) :
    Ensures (IsComparison column v) (c.comparison m key qualifier? operator v) := by
  unfold comparison
  rw [hcolumn]
  refine .bind_ok ?_
  rintro _ ⟨⟩
  cases operator
  case equal | notEqual =>
    dsimp only
    split
    · exact .pure (.plain column v _)
    · exact .bind_any fun sql => .pure (.plain column v _)
  case oneOf | noneOf =>
    dsimp only
    split
    · exact ensures_listed _ _ fun hempty => congrArg Value.list hempty
    · exact ensures_listed _ _ nofun
  case startsWithAnyCase | endsWithAnyCase | includesAnyCase | likeAnyCase =>
    exact .bind_any fun pattern => .pure (isComparison_likeAnyCase _ _ _ _)
  case negation => exact .error _
  all_goals exact .bind_any fun sql => .pure (.plain column v _)

/-! ## Conditions -/

theorem operators_eq_mapM (entries : List (String × OperatorArgument)) :
    c.operators m key qualifier? entries =
      entries.mapM fun entry => c.operator m key qualifier? entry.1 entry.2 := by
  induction entries with
  | nil => rfl
  | cons entry rest ih =>
    rw [operators, ih, List.mapM_cons]

/-- The tokens of an operator's predicate are among those of the condition. -/
theorem exists_operator {entries : List (String × OperatorArgument)} {p : Predicate}
    (h : c.condition m key qualifier? (.operators entries) = .ok p) {name : String}
    {argument : OperatorArgument} (hmem : (name, argument) ∈ entries) :
    ∃ q, c.operator m key qualifier? name argument = .ok q ∧ q ⊆ p := by
  obtain ⟨ps, hps, h⟩ := ok_of_bind_eq_ok h
  cases h
  rw [operators_eq_mapM] at hps
  obtain ⟨q, hq, hoperator⟩ := exists_mem_of_mapM_eq_ok hps hmem
  exact ⟨q, hoperator, fun _ ht => Predicate.mem_joinGrouped _ _ hq ht⟩

/-- Every comparison of a condition stands in its predicate. -/
theorem exists_comparison {condition : Condition} {operator : FieldOperator} {v : Value}
    (hcompares : condition.Compares operator v) {p : Predicate}
    (h : c.condition m key qualifier? condition = .ok p) :
    ∃ q, c.comparison m key qualifier? operator v = .ok q ∧ q ⊆ p := by
  induction hcompares generalizing p with
  | value hoperator =>
    subst hoperator
    exact ⟨p, h, fun _ ht => ht⟩
  | operator hmem hname hoperator =>
    obtain ⟨q, hq, hsub⟩ := exists_operator h hmem
    rw [Compiler.operator, hname] at hq
    refine ⟨q, ?_, hsub⟩
    cases operator
    case negation => exact absurd rfl hoperator
    all_goals exact hq
  | denied hmem hname hoperator =>
    subst hoperator
    obtain ⟨q, hq, hsub⟩ := exists_operator h hmem
    obtain ⟨_, hnegation, hq⟩ := ok_of_bind_eq_ok hq
    cases hname.symm.trans hnegation
    obtain ⟨inner, hinner, hq⟩ := ok_of_bind_eq_ok hq
    cases hq
    exact ⟨inner, hinner, fun t ht => hsub (.tail _ (Predicate.mem_parenthesized ht))⟩
  | negation hmem _ ih =>
    obtain ⟨q, hq, hsub⟩ := exists_operator h hmem
    obtain ⟨outer, _, hq⟩ := ok_of_bind_eq_ok hq
    cases outer
    case negation =>
      obtain ⟨denied, hdenied, hq⟩ := ok_of_bind_eq_ok hq
      cases hq
      obtain ⟨compared, hcompared, hinner⟩ := ih hdenied
      exact ⟨compared, hcompared, fun t ht => hsub (.tail _ (Predicate.mem_parenthesized (hinner ht)))⟩
    all_goals cases hq

/-! ## Filters -/

/-- Predicates that restrict nothing are left out. -/
theorem entries_eq_mapM (grouped : Bool) (list : Filter) :
    c.entries m qualifier? grouped list = do
      let ps ← list.mapM fun entry => c.entry m qualifier? grouped entry.1 entry.2
      return ps.filter (!·.isEmpty) := by
  induction list with
  | nil => rfl
  | cons entry rest ih =>
    rw [entries, ih, List.mapM_cons]
    simp only [bind_assoc, pure_bind, List.filter_cons, Bool.not_eq_true']
    refine bind_congr fun first => bind_congr fun others => ?_
    cases first.isEmpty <;> rfl

theorem groupItems_eq_mapM (grouped : Bool) (items : List FilterItem) :
    c.groupItems m qualifier? grouped items = do
      let ps ← items.mapM (c.groupItem m qualifier? grouped)
      return ps.filter (!·.isEmpty) := by
  induction items with
  | nil => rfl
  | cons item rest ih =>
    rw [groupItems, ih, List.mapM_cons]
    simp only [bind_assoc, pure_bind, List.filter_cons, Bool.not_eq_true']
    refine bind_congr fun first => bind_congr fun others => ?_
    cases first.isEmpty <;> rfl

/-- The tokens of each part are among those of the parts that are left. -/
theorem exists_part {α : Type} {f : α → Except QueryError Predicate} {items : List α} {ps : List Predicate}
    (h : items.mapM f >>= (fun parts => pure (parts.filter (!·.isEmpty))) = .ok ps) {a : α} (ha : a ∈ items) :
    ∃ p, f a = .ok p ∧ ∀ t ∈ p, ∃ part ∈ ps, t ∈ part := by
  obtain ⟨parts, hparts, h⟩ := ok_of_bind_eq_ok h
  cases h
  obtain ⟨p, hp, hf⟩ := exists_mem_of_mapM_eq_ok hparts ha
  refine ⟨p, hf, fun t ht => ⟨p, List.mem_filter.2 ⟨hp, ?_⟩, ht⟩⟩
  cases p with
  | nil => cases ht
  | cons _ _ => rfl

theorem mem_groupPredicate {connective : Connective} {grouped : Bool} {p : Predicate} {ps : List Predicate}
    (hp : p ∈ ps) {t : Predicate.Token} (ht : t ∈ p) : t ∈ groupPredicate connective grouped ps := by
  have hne : ¬ps.isEmpty = true := fun hempty => by
    rw [List.isEmpty_iff.1 hempty] at hp
    cases hp
  have hjoined := Predicate.mem_joinGrouped (grouped || connective.isNegated) connective.isDisjunctive hp ht
  rw [groupPredicate, if_neg hne]
  dsimp only
  split
  · exact .tail _ hjoined
  · exact hjoined

/-- Every entry of a filter is compiled, however deep it stands, and its tokens are among those of the
whole. -/
theorem exists_entry_of_holds {list : Filter} {value : FilterEntry} (hholds : list.Holds key value)
    {grouped : Bool} {ps : List Predicate} (h : c.entries m qualifier? grouped list = .ok ps) :
    ∃ each p, c.entry m qualifier? each key value = .ok p ∧ ∀ t ∈ p, ∃ part ∈ ps, t ∈ part := by
  induction hholds generalizing grouped ps with
  | entry hmem =>
    rw [entries_eq_mapM] at h
    exact ⟨grouped, exists_part h hmem⟩
  | group hgroup hitem _ ih =>
    rw [entries_eq_mapM] at h
    obtain ⟨whole, hwhole, hpart⟩ := exists_part h hgroup
    rw [Compiler.entry] at hwhole
    split at hwhole
    · cases hwhole
    · rename_i connective _
      obtain ⟨members, hmembers, hwhole⟩ := ok_of_bind_eq_ok hwhole
      cases hwhole
      rw [groupItems_eq_mapM] at hmembers
      obtain ⟨member, hmember, hamong⟩ := exists_part hmembers hitem
      obtain ⟨parts, hparts, hmember⟩ := ok_of_bind_eq_ok hmember
      cases hmember
      obtain ⟨each, p, hp, htokens⟩ := ih hparts
      refine ⟨each, p, hp, fun t ht => ?_⟩
      -- From the entry to its filter, from there to the group, and from the group to the whole.
      obtain ⟨part, hpartMem, ht⟩ := htokens t ht
      obtain ⟨among, hamongMem, ht⟩ := hamong t (Predicate.mem_joinGrouped _ _ hpartMem ht)
      exact hpart t (mem_groupPredicate hamongMem ht)

/-- In the predicate of a filter every comparison that it makes under a key stands, and compares the column to
which the key refers. -/
theorem exists_comparesColumn {column : Sql} {options : FilterOptions}
    (hcolumn : c.columnReference m key options.qualifier? = .ok column) {filter : Filter}
    {condition : Condition} (hholds : filter.Holds key (.field condition)) {operator : FieldOperator}
    {v : Value} (hcompares : condition.Compares operator v) {p : Predicate}
    (h : c.filterPredicate m (some filter) options = .ok p) :
    ∃ sql, .atom sql ∈ p ∧ ComparesColumn column v sql := by
  obtain ⟨ps, hps, h⟩ := ok_of_bind_eq_ok h
  cases h
  obtain ⟨_, q, hq, hpart⟩ := exists_entry_of_holds (hholds.append _) hps
  rw [Compiler.entry] at hq
  split at hq
  · cases hq
  · obtain ⟨compared, hcompared, hsub⟩ := exists_comparison hcompares hq
    obtain ⟨sql, rfl, hsql⟩ := ensures_isComparison hcolumn operator v _ hcompared
    obtain ⟨part, hpartMem, ht⟩ := hpart _ (hsub (.head _))
    exact ⟨sql, Predicate.mem_joinGrouped _ _ hpartMem ht, hsql⟩

/-! ## Keys of the same standing -/

theorem isOk_bind_congr {ε α β : Type} {x y : Except ε α} {f g : α → Except ε β} (h : x.isOk = y.isOk)
    (hfg : ∀ a b, (f a).isOk = (g b).isOk) : (x >>= f).isOk = (y >>= g).isOk := by
  cases x with
  | error _ =>
    cases y with
    | error _ => rfl
    | ok _ => cases h
  | ok a =>
    cases y with
    | error _ => cases h
    | ok b => exact hfg a b

theorem isOk_bind_congr_right {ε α β : Type} {x : Except ε α} {f g : α → Except ε β}
    (hfg : ∀ a, (f a).isOk = (g a).isOk) : (x >>= f).isOk = (x >>= g).isOk := by
  cases x with
  | error _ => rfl
  | ok a => exact hfg a

/-- Whether a comparison can be written does not depend on the column that it is about. -/
theorem isOk_comparison_congr {other : String}
    (h : (c.columnReference m key qualifier?).isOk = (c.columnReference m other qualifier?).isOk)
    (operator : FieldOperator) (v : Value) :
    (c.comparison m key qualifier? operator v).isOk = (c.comparison m other qualifier? operator v).isOk := by
  have hpattern : (patternOf key v).isOk = (patternOf other v).isOk := by
    rw [patternOf, patternOf]
    split <;> rfl
  refine isOk_bind_congr h fun _ _ => ?_
  cases operator
  case equal | notEqual =>
    dsimp only
    split
    · rfl
    · exact isOk_bind_congr rfl fun _ _ => rfl
  case less | lessOrEqual | greater | greaterOrEqual => exact isOk_bind_congr rfl fun _ _ => rfl
  case oneOf | noneOf =>
    dsimp only
    split
    all_goals
      split
      · rfl
      · exact isOk_bind_congr rfl fun _ _ => rfl
  case negation => rfl
  all_goals exact isOk_bind_congr (isOk_bind_congr hpattern fun _ _ => rfl) fun _ _ => rfl

mutual

/-- Whether a condition can be written does not depend on the column that it is about. -/
theorem isOk_condition_congr {other : String}
    (h : (c.columnReference m key qualifier?).isOk = (c.columnReference m other qualifier?).isOk) :
    ∀ condition : Condition,
    (c.condition m key qualifier? condition).isOk = (c.condition m other qualifier? condition).isOk
  | .value v => isOk_comparison_congr h _ v
  | .operators entries => isOk_bind_congr (isOk_operators_congr h entries) fun _ _ => rfl

theorem isOk_operators_congr {other : String}
    (h : (c.columnReference m key qualifier?).isOk = (c.columnReference m other qualifier?).isOk) :
    ∀ entries : List (String × OperatorArgument),
    (c.operators m key qualifier? entries).isOk = (c.operators m other qualifier? entries).isOk
  | [] => rfl
  | (name, argument) :: rest =>
    isOk_bind_congr (isOk_operator_congr h name argument) fun _ _ =>
      isOk_bind_congr (isOk_operators_congr h rest) fun _ _ => rfl

theorem isOk_operator_congr {other : String}
    (h : (c.columnReference m key qualifier?).isOk = (c.columnReference m other qualifier?).isOk)
    (name : String) : ∀ argument : OperatorArgument,
    (c.operator m key qualifier? name argument).isOk = (c.operator m other qualifier? name argument).isOk
  | .value v => isOk_bind_congr_right fun operator => by
    cases operator
    case negation => exact isOk_bind_congr (isOk_comparison_congr h _ v) fun _ _ => rfl
    all_goals exact isOk_comparison_congr h _ v
  | .condition inner => isOk_bind_congr_right fun operator => by
    cases operator
    case negation => exact isOk_bind_congr (isOk_condition_congr h inner) fun _ _ => rfl
    all_goals rfl

end

end Compiler

end EntitySql
