import EntitySql.Proofs.FollowUp.Projection
import EntitySql.Proofs.Reading.Conjunction
/-!
# What follow-up queries ask for

A follow-up query asks for the rows of the given parents, by an entry of its filter under the key of the related
entity. The entry stands beside those of the relation query, and all of them have to hold. Only one under the same
key is gone, because a filter has one entry for each key. `DeferredRelation.meansAll_followUp` says what is left.
-/

namespace EntitySql

namespace Compiler

open Predicate

variable {c : Compiler} {m : Member} {qualifier? : Option String} {softDelete? : Option Bool} {list : Filter}
  {key : String} {condition : Condition} {α : List Lexeme → Truth}

/-! ## Clauses with a condition -/

/-- A condition on a field is the same whether it stands alone or beside others. -/
theorem entries_of_condition_mem (h : (key, .field condition) ∈ list) :
    c.entries m qualifier? (1 < list.length) list = c.entries m qualifier? true list := by
  match list with
  | [_] =>
    obtain rfl := List.mem_singleton.1 h
    simp only [entries, entry]
  | _ :: _ :: rest => rw [decide_eq_true (by simp)]

/-- The entries of a filter with those that guard it against deleted rows. -/
def guardedFilter (m : Member) (softDelete? : Option Bool) (list : Filter) : Filter :=
  list ++ softDeleteGuard m (some list) { softDelete? }

theorem criterionClause_of_condition_mem (h : (key, .field condition) ∈ list) :
    c.criterionClause m (some (.filter list)) { qualifier?, softDelete? } = do
      let ps ← c.entries m qualifier? true (guardedFilter m softDelete? list)
      return clauseOf .where (join false ps) := by
  have hmem : (key, .field condition) ∈ guardedFilter m softDelete? list := List.mem_append_left _ h
  have hpredicate : c.filterPredicate m (some list) { qualifier?, softDelete? } = do
      let ps ← c.entries m qualifier? (1 < (guardedFilter m softDelete? list).length)
        (guardedFilter m softDelete? list)
      return join false ps := by
    simp only [filterPredicate, Bool.or_false]
    rfl
  have hclause : c.criterionClause m (some (.filter list)) { qualifier?, softDelete? } = do
      let p ← c.filterPredicate m (some list) { qualifier?, softDelete? }
      return clauseOf .where p := rfl
  rw [hclause, hpredicate, entries_of_condition_mem hmem, bind_assoc]
  rfl

/-- A clause with a condition can be written if and only if all entries of its filter can be. -/
theorem exists_criterionClause_iff (h : (key, .field condition) ∈ list) :
    (∃ rows, c.criterionClause m (some (.filter list)) { qualifier?, softDelete? } = .ok rows) ↔
      ∀ entry ∈ guardedFilter m softDelete? list, ∃ p, c.entry m qualifier? true entry.1 entry.2 = .ok p := by
  rw [← exists_entries_iff, criterionClause_of_condition_mem h]
  constructor
  · rintro ⟨rows, hrows⟩
    obtain ⟨ps, hps, _⟩ := ok_of_bind_eq_ok hrows
    exact ⟨ps, hps⟩
  · rintro ⟨ps, hps⟩
    rw [hps]
    exact ⟨_, rfl⟩

/-- A clause with a condition says something, and that is that all entries of its filter hold. -/
theorem meansAll_of_condition_mem (h : (key, .field condition) ∈ list)
    (hcloses : ∀ entry ∈ guardedFilter m softDelete? list, c.ClosesEntry m entry)
    (hshape : condition.shape ≠ .nothing) {rows : Sql}
    (hrows : c.criterionClause m (some (.filter list)) { qualifier?, softDelete? } = .ok rows) :
    ∃ body, c.dialect.characters rows = " WHERE ".toList ++ body ∧
      c.MeansAll m qualifier? (guardedFilter m softDelete? list) body := by
  have hmem : (key, .field condition) ∈ guardedFilter m softDelete? list := List.mem_append_left _ h
  rw [criterionClause_of_condition_mem h] at hrows
  obtain ⟨ps, hps, hrows⟩ := ok_of_bind_eq_ok hrows
  cases hrows
  obtain ⟨p, hp, hne⟩ : ∃ p ∈ ps, p ≠ [] := by
    rw [entries_eq_mapM] at hps
    obtain ⟨parts, hparts, hps⟩ := ok_of_bind_eq_ok hps
    cases hps
    obtain ⟨p, hp, hentry⟩ := exists_mem_of_mapM_eq_ok hparts hmem
    obtain ⟨hraws, hconditions⟩ := hcloses _ hmem
    have hfits := fits_entry m qualifier? key (.field condition) hraws hconditions p hentry
    have hne : p ≠ [] := fun hnil => hshape (hfits.eq_nil_iff.1 hnil)
    exact ⟨p, List.mem_filter.2 ⟨hp, by simpa using hne⟩, hne⟩
  obtain ⟨t, ht⟩ := List.exists_mem_of_ne_nil p hne
  have hjoined : (join false ps).isEmpty = false :=
    List.isEmpty_eq_false_iff.2 (List.ne_nil_of_mem (mem_join false hp ht))
  refine ⟨(join false ps).text c.dialect, ?_, meansAll_join hcloses hps (List.ne_nil_of_mem hp)⟩
  simp [clauseOf, hjoined, Predicate.text, Dialect.renderPiece]

/-- A comparison of a stored field is one test. -/
theorem isTest_comparison (hkey : m.computed? key = none) {operator : FieldOperator} {v : Value}
    (hv : c.ClosesAll v.raws) {p : Predicate} (h : c.comparison m key qualifier? operator v = .ok p) :
    p ≠ [] ∧ IsTest (c.dialect.lexemes (p.text c.dialect)) := by
  have hcloses : ∀ sql, m.computed? key = some sql → c.Closes sql := by simp [hkey]
  have hsingle := ensures_comparison hcloses qualifier? operator hv p h
  exact ⟨hsingle.ne_nil, hsingle.isTest hkey⟩

/-- What a test is worth is its truth. -/
theorem isTrue_iff_of_isTest {d : Dialect} {text : List Char} (h : IsTest (d.lexemes text)) :
    d.IsTrue α text ↔ (Formula.ofTest (d.lexemes text)).truth α = .yes := by
  have hreads : Reads .expression _ _ := .conjunct (.operand h.reads)
  constructor
  · rintro ⟨f, hf, htruth⟩
    rwa [hreads.unique hf]
  · exact fun htruth => ⟨_, hreads, htruth⟩

theorem condition_ofOperator {operator : FieldOperator} (hplain : operator ≠ .negation) (v : Value) :
    c.condition m key qualifier? (.ofOperator operator (.value v)) = c.comparison m key qualifier? operator v := by
  have hname : FieldOperator.ofKey operator.key = .ok operator := by cases operator <;> rfl
  have hoperator : c.operator m key qualifier? operator.key (.value v) =
      c.comparison m key qualifier? operator v := by
    rw [Compiler.operator, hname]
    cases operator <;> first | rfl | exact absurd rfl hplain
  rw [Condition.ofOperator, condition, operators, hoperator, operators]
  cases c.comparison m key qualifier? operator v with
  | error _ => rfl
  | ok p => exact congrArg Except.ok (joinGrouped_singleton true false p)

/-- An entry of one operator holds where its comparison is true. -/
theorem entryHolds_ofOperator_iff {operator : FieldOperator} (hplain : operator ≠ .negation)
    (hname : isOperatorKey key = false) (hkey : m.computed? key = none) {v : Value} (hv : c.ClosesAll v.raws) :
    c.EntryHolds m qualifier? α (key, .field (.ofOperator operator (.value v))) ↔
      ∃ p, c.comparison m key qualifier? operator v = .ok p ∧
        (Formula.ofTest (c.dialect.lexemes (p.text c.dialect))).truth α = .yes := by
  have hentry : c.entry m qualifier? true key (.field (.ofOperator operator (.value v))) =
      c.comparison m key qualifier? operator v := by
    rw [entry, if_neg (by rw [hname]; exact Bool.false_ne_true), condition_ofOperator hplain]
  rw [EntryHolds, hentry]
  refine exists_congr fun p => and_congr_right fun hp => ?_
  obtain ⟨hne, htest⟩ := isTest_comparison hkey hv hp
  rw [holds_iff hne, isTrue_iff_of_isTest htest]

end Compiler

namespace DeferredRelation

open Compiler

variable {relation : Relation}

/-- The filter of a relation query. -/
def ownFilter (d : DeferredRelation) : Filter := d.query.filter?.getD []

/-- The entries of the relation query that are left where one is put under the key. -/
def otherEntries (d : DeferredRelation) (key : String) : Filter := d.ownFilter.eraseP (·.1 = key)

theorem otherEntries_of_not_mem {d : DeferredRelation} {key : String}
    (h : ∀ entry ∈ d.ownFilter, entry.1 ≠ key) : d.otherEntries key = d.ownFilter :=
  List.eraseP_of_forall_not fun entry hentry => by simpa using h entry hentry

/-- The query that loads a relation by a key of the related entity keeps the entries that the relation query has
under other keys, which are all of them if it has none under that key. Its clause can be written if and only if
these, the one for the rows of the parents and the guard against deleted rows can be, and it means that all of them
hold. -/
theorem meansAll_followUp {d : DeferredRelation} {r : Registry} {owner : Member} {pair : KeyPair}
    {others : List KeyPair} (hresolve : d.resolve r = .ok (owner, relation)) (hthrough : relation.through? = none)
    (hpairs : relation.keyPairs = pair :: others) (parents : List Value) (c : Compiler) :
    ∃ query list, d.followUp r parents = .ok (relation.entity, query) ∧
      query.criterion? = some (.filter list) ∧
      (∀ entry, entry ∈ list ↔
        entry = (pair.far, ofParents parents) ∨ entry ∈ d.otherEntries pair.far) ∧
      ((∀ entry ∈ d.ownFilter, entry.1 ≠ pair.far) → d.otherEntries pair.far = d.ownFilter) ∧
      ∀ target, r.member relation.entity = .ok target → ∀ qualifier? softDelete?,
        let clause := c.criterionClause target query.criterion? { qualifier?, softDelete? }
        let all := guardedFilter target softDelete? list
        ((∃ rows, clause = .ok rows) ↔
          ∀ entry ∈ all, ∃ p, c.entry target qualifier? true entry.1 entry.2 = .ok p) ∧
        ((∀ entry ∈ all, c.ClosesEntry target entry) → ∀ rows, clause = .ok rows →
          ∃ body, c.dialect.characters rows = " WHERE ".toList ++ body ∧
            c.MeansAll target qualifier? all body) := by
  have hmem := Entries.mem_put_self pair.far (ofParents parents) d.ownFilter
  refine ⟨_, _, followUp_eq hresolve hthrough hpairs parents, rfl, fun _ => Entries.mem_put_iff,
    otherEntries_of_not_mem, fun target _ qualifier? softDelete? => ?_⟩
  exact ⟨exists_criterionClause_iff hmem, fun hcloses rows => meansAll_of_condition_mem hmem hcloses nofun⟩

/-- Both the condition on the name and the one for the parents have to hold. -/
theorem meansAll_followUp_units :
    let c : Compiler := { dialect := .mysql, expander := fun _ _ => .ok "" }
    let own : String × FilterEntry := ("name", .field (.value (.text "kg")))
    let parents := ("categoryId", ofParents [.int 1, .int 2])
    let body := "`name` = 'kg' AND `categoryId` IN (1, 2)".toList
    ∃ owner query target rows, (unitsOf { filter? := some [own] }).resolve categories = .ok (owner, categoryUnits) ∧
      (unitsOf { filter? := some [own] }).followUp categories [.int 1, .int 2] = .ok ("unit", query) ∧
      categories.member "unit" = .ok target ∧ c.criterionClause target query.criterion? {} = .ok rows ∧
      c.dialect.characters rows = " WHERE ".toList ++ body ∧
      ∀ α, c.dialect.IsTrue α body ↔
        c.EntryHolds target none α own ∧ c.EntryHolds target none α parents := by
  intro c own parents body
  obtain ⟨owner, hresolve⟩ : ∃ owner, (unitsOf { filter? := some [own] }).resolve categories =
      .ok (owner, categoryUnits) := ⟨_, rfl⟩
  obtain ⟨target, htarget⟩ : ∃ target, categories.member "unit" = .ok target := ⟨_, rfl⟩
  obtain ⟨query, list, hquery, hcriterion, _, _, hmeans⟩ :=
    meansAll_followUp hresolve rfl rfl [.int 1, .int 2] c
  obtain rfl := eq_parentsQuery hresolve rfl rfl hquery
  obtain rfl : [own, parents] = list := by
    injection hcriterion with hcriterion
    injection hcriterion
  obtain ⟨hguard, hname, hcategory⟩ : guardedFilter target none [own, parents] = [own, parents] ∧
      target.computed? "name" = none ∧ target.computed? "categoryId" = none := by
    cases htarget
    exact ⟨rfl, rfl, rfl⟩
  obtain ⟨rows, hrows, htext⟩ : ∃ rows, c.criterionClause target (some (.filter [own, parents])) {} = .ok rows ∧
      c.dialect.characters rows = " WHERE ".toList ++ body := by
    cases htarget
    exact ⟨_, rfl, by decide +kernel⟩
  have hcloses : ∀ entry ∈ guardedFilter target none [own, parents], c.ClosesEntry target entry := by
    rw [hguard]
    refine List.forall_mem_cons.2 ⟨⟨nofun, fun _ h => ?_, .nil⟩, List.forall_mem_singleton.2
      ⟨nofun, fun _ h => ?_, .nil⟩⟩
    · cases hname.symm.trans h
    · cases hcategory.symm.trans h
  obtain ⟨body', hbody, hmeans, _⟩ := (hmeans target htarget none none).2 hcloses rows hrows
  obtain rfl : body = body' := List.append_cancel_left (htext.symm.trans hbody)
  rw [hguard] at hmeans
  refine ⟨owner, _, target, rows, hresolve, hquery, htarget, hrows, htext, fun α => ?_⟩
  rw [hmeans (List.forall_mem_cons.2 ⟨rfl, List.forall_mem_singleton.2 rfl⟩), List.forall_mem_cons,
    List.forall_mem_singleton]

/-- A condition that the relation query has on the key itself is gone: the units of the second category are read,
though the relation is asked for without them. -/
theorem replaces_condition_on_key :
    let c : Compiler := { dialect := .mysql, expander := fun _ _ => .ok "" }
    let own : String × FilterEntry := ("categoryId", .field (.ofOperator .notEqual (.value (.int 2))))
    let body := "`categoryId` IN (1, 2)".toList
    ∃ owner query target rows, (unitsOf { filter? := some [own] }).resolve categories = .ok (owner, categoryUnits) ∧
      (unitsOf { filter? := some [own] }).followUp categories [.int 1, .int 2] = .ok ("unit", query) ∧
      categories.member "unit" = .ok target ∧ target.entity.isStored "categoryId" = true ∧
      c.criterionClause target query.criterion? {} = .ok rows ∧
      c.dialect.characters rows = " WHERE ".toList ++ body ∧
      ∃ α, c.dialect.IsTrue α body ∧ ¬c.EntryHolds target none α own := by
  intro c own body
  obtain ⟨target, htarget⟩ : ∃ target, categories.member "unit" = .ok target := ⟨_, rfl⟩
  obtain ⟨hcategory, hstored⟩ : target.computed? "categoryId" = none ∧
      target.entity.isStored "categoryId" = true := by
    cases htarget
    exact ⟨rfl, by decide +kernel⟩
  obtain ⟨p, hp, hmember⟩ : ∃ p, c.comparison target "categoryId" none .oneOf (.list [.int 1, .int 2]) = .ok p ∧
      p.text c.dialect = body := by
    cases htarget
    exact ⟨_, rfl, by decide +kernel⟩
  obtain ⟨q, hq, hdifferent⟩ : ∃ q, c.comparison target "categoryId" none .notEqual (.int 2) = .ok q ∧
      q.text c.dialect = "`categoryId` <> 2".toList := by
    cases htarget
    exact ⟨_, rfl, by decide +kernel⟩
  obtain ⟨rows, hrows, htext⟩ : ∃ rows, c.criterionClause target
      (some (.filter [("categoryId", ofParents [.int 1, .int 2])])) {} = .ok rows ∧
      c.dialect.characters rows = " WHERE ".toList ++ body := by
    cases htarget
    exact ⟨_, rfl, by decide +kernel⟩
  -- The row is one of the second category.
  let α (ts : List Lexeme) : Truth := if ts = c.dialect.lexemes "`categoryId` <> 2".toList then .no else .yes
  refine ⟨_, _, target, rows, rfl, rfl, htarget, hstored, hrows, htext, α, ?_, fun hown => ?_⟩
  · rw [← hmember, isTrue_iff_of_isTest (isTest_comparison hcategory .nil hp).2, hmember]
    decide +kernel
  · obtain ⟨q', hq', htruth⟩ := (entryHolds_ofOperator_iff (by decide) rfl hcategory .nil).1 hown
    obtain rfl := Except.ok.inj (hq.symm.trans hq')
    rw [hdifferent] at htruth
    revert htruth
    decide +kernel

end DeferredRelation

end EntitySql
