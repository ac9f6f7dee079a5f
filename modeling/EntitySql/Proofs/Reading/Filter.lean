import EntitySql.Proofs.Reading.Fragment
import EntitySql.Proofs.Reading.Meaning
/-!
# Filters are read as they are meant

The text of a filter without raw SQL and computed fields has one reading, and that has the truth of
the filter whatever the truth of its comparisons. Parentheses depend on how many parts there were
before the empty ones were left out, so the induction carries a bound: what is left are no more
predicates than parts.
-/

namespace EntitySql

/-- The truth of every fragment. -/
abbrev Assignment := List Lexeme → Truth

namespace Predicate

/-- A predicate with a reading of the given truth. -/
def Says (d : Dialect) (level : Level) (truth : Assignment → Truth) (p : Predicate) : Prop :=
  ∃ f, d.ReadsAs level (p.text d) f ∧ ∀ α, truth α = f.truth α

/-- Predicates with readings of the given truths. -/
def SaysAll (d : Dialect) (level : Level) (truths : Assignment → List Truth) (ps : List Predicate) :
    Prop :=
  ∃ fs, List.Forall₂ (fun p f => d.ReadsAs level (p.text d) f) ps fs ∧
    ∀ α, truths α = fs.map (Formula.truth α)

/-- A predicate that is empty where nothing is meant, and else has a reading of the truth that is
meant. -/
inductive Expresses (d : Dialect) (level : Level) (meaning : Assignment → Option Truth) :
    Predicate → Prop
  | nothing (h : ∀ α, meaning α = none) : Expresses d level meaning []
  | formula {p : Predicate} (f : Formula) (hreads : d.ReadsAs level (p.text d) f)
      (h : ∀ α, meaning α = some (f.truth α)) : Expresses d level meaning p

variable {d : Dialect} {level : Level}

theorem ne_nil_of_readsAs {p : Predicate} {f : Formula} (h : d.ReadsAs level (p.text d) f) :
    p ≠ [] := by
  rintro rfl
  exact h.reads.ne_nil (by cases d <;> rfl)

/-- An operand may stand wherever a condition does. -/
theorem Expresses.ofGrouped {meaning : Assignment → Option Truth} {p : Predicate}
    (h : Expresses d .operand meaning p) (grouped : Bool) :
    Expresses d (.ofGrouped grouped) meaning p := by
  cases h with
  | nothing h => exact .nothing h
  | formula f hreads h =>
    refine .formula f ?_ h
    cases grouped with
    | true => exact hreads
    | false => exact hreads.toExpression

theorem Says.expresses {truth : Assignment → Truth} {p : Predicate} (h : Says d level truth p) :
    Expresses d level (fun α => some (truth α)) p := by
  obtain ⟨f, hreads, htruth⟩ := h
  exact .formula f hreads fun α => by rw [htruth]

/-- A denied predicate in parentheses. -/
theorem Says.denied {truth : Assignment → Truth} {p : Predicate} (h : Says d level truth p) :
    Says d .operand (fun α => (truth α).not) (negated (parenthesized p)) := by
  obtain ⟨f, hreads, htruth⟩ := h
  refine ⟨.not f, ?_, fun α => by simp only [htruth, Formula.truth]⟩
  rw [text_negated, text_parenthesized]
  exact hreads.group.negation

namespace SaysAll

variable {truths : Assignment → List Truth} {ps : List Predicate}

theorem nil : SaysAll d level (fun _ => []) [] := ⟨[], .nil, fun _ => rfl⟩

theorem cons {truth : Assignment → Truth} {p : Predicate} (hp : Says d level truth p)
    (hps : SaysAll d level truths ps) :
    SaysAll d level (fun α => truth α :: truths α) (p :: ps) := by
  obtain ⟨f, hreads, htruth⟩ := hp
  obtain ⟨fs, hall, htruths⟩ := hps
  exact ⟨f :: fs, .cons hreads hall, fun α => by simp only [htruth, htruths, List.map_cons]⟩

/-- An empty predicate is left out, as what means nothing is. -/
theorem cons_unless_empty {meaning : Assignment → Option Truth} {p : Predicate}
    (hp : Expresses d level meaning p) (hps : SaysAll d level truths ps) :
    SaysAll d level (fun α => (meaning α).toList ++ truths α)
      (if p.isEmpty then ps else p :: ps) := by
  obtain ⟨fs, hall, htruths⟩ := hps
  cases hp with
  | nothing h => exact ⟨fs, hall, fun α => by simp [h, htruths]⟩
  | formula f hreads h =>
    rw [if_neg (by simpa using ne_nil_of_readsAs hreads)]
    exact ⟨f :: fs, .cons hreads hall, fun α => by simp [h, htruths]⟩

/-- Parts joined by one connective, in parentheses where they have to be. -/
theorem joinGrouped {grouped each : Bool} (disjunctive : Bool)
    (h : SaysAll d (.ofGrouped each) truths ps) (hne : ps ≠ [])
    (hseveral : 1 < ps.length → each = true) (hgrouped : grouped = true → each = true) :
    Says d (.ofGrouped grouped)
      (fun α => Truth.joined disjunctive (truths α))
      (joinGrouped grouped disjunctive ps) := by
  obtain ⟨fs, hall, htruths⟩ := h
  cases hall with
  | nil => exact absurd rfl hne
  | @cons p f rest fs hp hrest =>
    refine ⟨Formula.joined disjunctive f fs, ?_, fun α => ?_⟩
    · refine readsAs_joinGrouped disjunctive hp hrest (fun hmore => hseveral ?_) hgrouped
      have := List.length_pos_of_ne_nil hmore
      simpa using this
    · simp only [Formula.truth_joined, htruths]

end SaysAll

end Predicate

namespace Compiler

open Predicate

variable {d : Dialect}

theorem groupPredicate_all (grouped : Bool) (ps : List Predicate) :
    groupPredicate .all grouped ps = .joinGrouped grouped false ps := by
  cases ps with
  | nil => cases grouped <;> rfl
  | cons p rest => simp [groupPredicate, Connective.isNegated, Connective.isDisjunctive]

/-- The members of a group under its connective. Several that are denied are in parentheses. -/
theorem expresses_groupPredicate (connective : Connective) {grouped each : Bool}
    {truths : Assignment → List Truth} {ps : List Predicate}
    (h : SaysAll d (.ofGrouped each) truths ps) (hseveral : 1 < ps.length → each = true)
    (hgrouped : grouped = true → each = true)
    (hnegated : connective.isNegated = true → each = true) :
    Expresses d (.ofGrouped grouped) (fun α => connective.truth? (truths α))
      (groupPredicate connective grouped ps) := by
  rcases eq_or_ne ps [] with rfl | hne
  · obtain ⟨fs, hall, htruths⟩ := h
    cases hall
    exact .nothing fun α => by simp only [htruths, List.map_nil, Connective.truth?]
  have htruth (α : Assignment) : connective.truth? (truths α) =
      some (if connective.isNegated then (Truth.joined connective.isDisjunctive (truths α)).not
        else Truth.joined connective.isDisjunctive (truths α)) := by
    obtain ⟨fs, hall, htruths⟩ := h
    cases hall with
    | nil => exact absurd rfl hne
    | cons _ _ => rw [htruths]; cases connective <;> rfl
  have heach : (grouped || connective.isNegated) = true → each = true := by
    rw [Bool.or_eq_true]
    exact fun h => h.elim hgrouped hnegated
  obtain ⟨f, hreads, hf⟩ := h.joinGrouped connective.isDisjunctive hne hseveral heach
  rw [groupPredicate, if_neg (by simpa using hne)]
  cases hnegation : connective.isNegated with
  | true =>
    rw [hnegation, Bool.or_true] at hreads
    have hdenied := Dialect.ReadsAs.negation hreads
    rw [← text_negated] at hdenied
    have htruth (α : Assignment) : connective.truth? (truths α) =
        some ((Formula.not f).truth α) := by
      simp only [htruth, hnegation, if_pos, hf, Formula.truth]
    simp only [if_pos, Bool.or_true]
    exact (Expresses.formula _ hdenied htruth).ofGrouped grouped
  | false =>
    rw [hnegation, Bool.or_false] at hreads
    refine .formula f ?_ fun α => by simp [htruth, hnegation, hf]
    simpa using hreads

/-- Parts that all have to hold. -/
theorem expresses_joinGrouped {grouped each : Bool} {truths : Assignment → List Truth}
    {ps : List Predicate} (h : SaysAll d (.ofGrouped each) truths ps)
    (hseveral : 1 < ps.length → each = true) (hgrouped : grouped = true → each = true) :
    Expresses d (.ofGrouped grouped) (fun α => Connective.all.truth? (truths α))
      (.joinGrouped grouped false ps) := by
  rw [← groupPredicate_all]
  exact expresses_groupPredicate .all h hseveral hgrouped (by simp [Connective.isNegated])

/-! ## Conditions -/

variable {c : Compiler}

theorem ClosesAll.of_eq_nil {sqls : List RawSql} (h : sqls = []) : c.ClosesAll sqls := by
  subst h
  exact .nil

/-- The tokens of a part without Boolean structure; none if it is not compiled. -/
def leafTokens (c : Compiler) (m : Member) (qualifier? : Option String) : Leaf → List Lexeme
  | .comparison key operator v =>
    match c.comparison m key qualifier? operator v with
    | .ok p => c.dialect.lexemes (p.text c.dialect)
    | .error _ => []
  | .search request => c.dialect.lexemes (c.dialect.characters (c.textSearch m request qualifier?))

/-- The truth of a part without Boolean structure where the fragments have the given truth. -/
def leafTruth (c : Compiler) (m : Member) (qualifier? : Option String) (α : Assignment)
    (leaf : Leaf) : Truth :=
  (Formula.ofTest (c.leafTokens m qualifier? leaf)).truth α

section Conditions

variable (m : Member) (qualifier? : Option String) {key : String}

/-- A comparison is a fragment, and its truth is given. -/
theorem says_comparison (hkey : m.computed? key = none) (operator : FieldOperator) {v : Value}
    (hv : v.raws = []) :
    Ensures (Says c.dialect .operand fun α =>
        c.leafTruth m qualifier? α (.comparison key operator v))
      (c.comparison m key qualifier? operator v) := by
  have hcloses : ∀ sql, m.computed? key = some sql → c.Closes sql := by simp [hkey]
  intro p hp
  have hsingle := ensures_comparison hcloses qualifier? operator (.of_eq_nil hv) p hp
  refine ⟨_, ⟨hsingle.isPhrase.settles, (hsingle.isTest hkey).reads⟩, fun α => ?_⟩
  simp only [leafTruth, leafTokens, hp]

mutual

theorem says_condition (hkey : m.computed? key = none) : ∀ condition : Condition,
    condition.raws = [] → condition.HasOperators →
    Ensures (Says c.dialect .operand fun α =>
        condition.truth (c.leafTruth m qualifier? α) key)
      (c.condition m key qualifier? condition)
  | .value v, hraws, _ => says_comparison m qualifier? hkey (Condition.defaultOperator v) hraws
  | .operators entries, hraws, ⟨hne, hoperators⟩ =>
    (says_operators hkey entries hraws hoperators).bind fun ps ⟨hlength, hps⟩ => .pure <| by
      have hsome : ps ≠ [] := by
        rintro rfl
        exact hne (List.length_eq_zero_iff.1 hlength.symm)
      have hall : SaysAll c.dialect (.ofGrouped true) _ ps := hps
      exact hall.joinGrouped false hsome (fun _ => rfl) fun _ : true = true => rfl

theorem says_operators (hkey : m.computed? key = none) :
    ∀ entries : List (String × OperatorArgument),
    OperatorArgument.rawsOfEntries entries = [] → OperatorArgument.HaveOperators entries →
    Ensures (fun ps => ps.length = entries.length ∧ SaysAll c.dialect .operand
        (fun α => OperatorArgument.truths (c.leafTruth m qualifier? α) key entries) ps)
      (c.operators m key qualifier? entries)
  | [], _, _ => .pure ⟨rfl, .nil⟩
  | (name, argument) :: rest, hraws, ⟨hargument, hrest⟩ =>
    have hraws := List.append_eq_nil_iff.1 hraws
    (says_operator hkey name argument hraws.1 hargument).bind fun _ hfirst =>
      (says_operators hkey rest hraws.2 hrest).bind fun _ ⟨hlength, hothers⟩ =>
        .pure ⟨by simp [hlength], .cons hfirst hothers⟩

theorem says_operator (hkey : m.computed? key = none) (name : String) :
    ∀ argument : OperatorArgument, argument.raws = [] → argument.HasOperators →
    Ensures (Says c.dialect .operand fun α =>
        argument.truth (c.leafTruth m qualifier? α) key name)
      (c.operator m key qualifier? name argument)
  | .value v, hraws, _ => by
    unfold operator OperatorArgument.truth
    cases FieldOperator.ofKey name with
    | error e => exact .error e
    | ok operator =>
      by_cases hnegation : operator = .negation
      · subst hnegation
        exact (says_comparison m qualifier? hkey _ hraws).bind fun _ hinner => .pure hinner.denied
      · have hplain := says_comparison (c := c) m qualifier? hkey operator hraws
        cases operator <;> first | exact hplain | exact absurd rfl hnegation
  | .condition inner, hraws, hoperators => by
    unfold operator
    cases FieldOperator.ofKey name with
    | error e => exact .error e
    | ok operator =>
      by_cases hnegation : operator = .negation
      · subst hnegation
        exact (says_condition hkey inner hraws hoperators).bind fun _ hdenied =>
          .pure hdenied.denied
      · cases operator <;> first | exact .error _ | exact absurd rfl hnegation

end

end Conditions

/-! ## Filters -/

section Filters

variable (m : Member) (qualifier? : Option String)

/-- Whether a condition is on a stored field and has no empty list of operators. -/
def IsPlain (m : Member) (key : String) (condition : Condition) : Prop :=
  m.computed? key = none ∧ condition.HasOperators

theorem expresses_textSearch (search : TextSearch) :
    Expresses c.dialect .operand
      (fun α => some (c.leafTruth m qualifier? α (.search search)))
      (.ofAtom (c.textSearch m search qualifier?)) := by
  obtain ⟨hsettles, htest⟩ := c.isTest_textSearch m search qualifier?
  rw [← text_ofAtom] at hsettles htest
  refine .formula _ ⟨hsettles, htest.reads⟩ fun α => ?_
  simp only [leafTruth, leafTokens, text_ofAtom]

mutual

theorem expresses_entries (grouped : Bool) : ∀ list : List (String × FilterEntry),
    FilterEntry.rawsOfEntries list = [] → FilterEntry.AllConditionsOfEntries (IsPlain m) list →
    Ensures (fun ps => ps.length ≤ list.length ∧ SaysAll c.dialect (.ofGrouped grouped)
        (fun α => FilterEntry.truths (c.leafTruth m qualifier? α) list) ps)
      (c.entries m qualifier? grouped list)
  | [], _, _ => .pure ⟨Nat.le_refl 0, .nil⟩
  | (key, value) :: rest, hraws, ⟨hvalue, hrest⟩ =>
    have hraws := List.append_eq_nil_iff.1 hraws
    (expresses_entry grouped key value hraws.1 hvalue).bind fun _ hfirst =>
      (expresses_entries grouped rest hraws.2 hrest).bind fun _ ⟨hlength, hothers⟩ =>
        .pure ⟨by split <;> simp <;> omega, .cons_unless_empty hfirst hothers⟩

theorem expresses_entry (grouped : Bool) (key : String) : ∀ value : FilterEntry,
    value.raws = [] → value.AllConditions (IsPlain m) key →
    Ensures (Expresses c.dialect (.ofGrouped grouped)
        fun α => value.truth? (c.leafTruth m qualifier? α) key)
      (c.entry m qualifier? grouped key value)
  | .subquery sql, hraws, _ => absurd hraws (List.cons_ne_nil sql [])
  | .search request, _, _ => by
    unfold entry
    split
    · exact .pure ((expresses_textSearch m qualifier? request).ofGrouped grouped)
    · exact .error _
  | .group items, hraws, hitems => by
    unfold entry FilterEntry.truth?
    cases Connective.ofKey? key with
    | none => exact .error _
    | some connective =>
      refine (expresses_groupItems _ items hraws hitems).bind fun ps ⟨hlength, hps⟩ => .pure ?_
      refine expresses_groupPredicate connective hps (fun hseveral => ?_) ?_ ?_
      · simp [show 1 < items.length by omega]
      · rintro rfl
        simp
      · intro hnegated
        simp [hnegated]
  | .field condition, hraws, ⟨hkey, hoperators⟩ => by
    unfold entry
    split
    · exact .error _
    · exact (says_condition m qualifier? hkey condition hraws hoperators).mono fun _ h =>
        h.expresses.ofGrouped grouped

theorem expresses_groupItems (grouped : Bool) : ∀ items : List FilterItem,
    FilterItem.rawsOfItems items = [] → FilterItem.AllConditionsOfItems (IsPlain m) items →
    Ensures (fun ps => ps.length ≤ items.length ∧ SaysAll c.dialect (.ofGrouped grouped)
        (fun α => FilterItem.truths (c.leafTruth m qualifier? α) items) ps)
      (c.groupItems m qualifier? grouped items)
  | [], _, _ => .pure ⟨Nat.le_refl 0, .nil⟩
  | item :: rest, hraws, ⟨hitem, hrest⟩ =>
    have hraws := List.append_eq_nil_iff.1 hraws
    (expresses_groupItem grouped item hraws.1 hitem).bind fun _ hfirst =>
      (expresses_groupItems grouped rest hraws.2 hrest).bind fun _ ⟨hlength, hothers⟩ =>
        .pure ⟨by split <;> simp <;> omega, .cons_unless_empty hfirst hothers⟩

theorem expresses_groupItem (grouped : Bool) : ∀ item : FilterItem,
    item.raws = [] → item.AllConditions (IsPlain m) →
    Ensures (Expresses c.dialect (.ofGrouped grouped)
        fun α => item.truth? (c.leafTruth m qualifier? α))
      (c.groupItem m qualifier? grouped item)
  | .raw sql, hraws, _ => absurd hraws (List.cons_ne_nil sql [])
  | .filter list, hraws, hlist =>
    (expresses_entries _ list hraws hlist).bind fun ps ⟨hlength, hps⟩ => .pure <|
      expresses_joinGrouped hps (fun hseveral => by simp [show 1 < list.length by omega])
        (by rintro rfl; simp)

end

/-- A filter without raw SQL, computed fields and empty lists of operators is read in one way, and
that has the truth of the filter. With `grouped` it keeps it beside connectives and behind `NOT`.
Where nothing is written, nothing is meant. -/
theorem reads_filterClause {filter : Filter} {grouped : Bool} {sql : Sql}
    (hraws : FilterEntry.rawsOfEntries filter = [])
    (hplain : Filter.AllConditions (IsPlain m) filter)
    (h : c.filterClause m (some filter)
      { qualifier?, grouped, clause := .bare, softDelete? := some false } = .ok sql) :
    (c.dialect.characters sql = [] ∧ ∀ α, filter.truth? (c.leafTruth m qualifier? α) = none) ∨
      ∃ f, c.dialect.ReadsAs (.ofGrouped grouped) (c.dialect.characters sql) f ∧
        (∀ g, Reads .expression (c.dialect.lexemes (c.dialect.characters sql)) g → g = f) ∧
        (grouped = true → c.dialect.StandsAlone (c.dialect.characters sql) f) ∧
        ∀ α, filter.truth? (c.leafTruth m qualifier? α) = some (f.truth α) := by
  have hguard : softDeleteGuard m (some filter)
      { qualifier?, grouped, clause := .bare, softDelete? := some false } = [] := by
    unfold softDeleteGuard
    split
    · rfl
    · simp
  have hensures : Ensures (fun sql => ∃ p : Predicate, c.dialect.characters sql = p.text c.dialect ∧
      Expresses c.dialect (.ofGrouped grouped)
        (fun α => filter.truth? (c.leafTruth m qualifier? α)) p)
      (c.filterClause m (some filter)
        { qualifier?, grouped, clause := .bare, softDelete? := some false }) := by
    simp only [filterClause, filterPredicate, hguard, Option.getD_some, List.append_nil, bind_assoc,
      pure_bind]
    refine (expresses_entries m qualifier? _ filter hraws hplain).bind fun ps ⟨hlength, hps⟩ =>
      .pure ⟨.joinGrouped grouped false ps, ?_, expresses_joinGrouped hps (fun hseveral => ?_) ?_⟩
    · unfold clauseOf Predicate.text
      split
      · simp_all [Predicate.toSql]
      · rfl
    · simp [show 1 < filter.length by omega]
    · rintro rfl
      simp
  obtain ⟨p, hp, hexpresses⟩ := hensures sql h
  rw [hp]
  cases hexpresses with
  | nothing hnone => exact .inl ⟨rfl, hnone⟩
  | formula f hreads htruth =>
    refine .inr ⟨f, hreads, fun g hg => hg.unique hreads.toExpression.reads, ?_, htruth⟩
    rintro rfl
    exact hreads.standsAlone

end Filters

/-- A denied pair of conditions is in parentheses, and what says nothing is passed over. -/
theorem reads_filterClause_denied :
    let c : Compiler := { dialect := .postgres, expander := fun _ _ => .ok "" }
    let m : Member := { registry := {}, entity := { name := "User" } }
    let filter : Filter :=
      [("$nor", .group
        [.filter [], .filter [("a", .field (.value (.int 1))), ("b", .field (.value .null))]])]
    let options : FilterOptions := { grouped := true, clause := .bare, softDelete? := some false }
    ∃ sql, c.filterClause m (some filter) options = .ok sql ∧
      String.ofList (c.dialect.characters sql) = "NOT (\"a\" = 1 AND \"b\" IS NULL)" ∧
      FilterEntry.rawsOfEntries filter = [] ∧ Filter.AllConditions (IsPlain m) filter ∧
      ((c.dialect.characters sql = [] ∧ ∀ α, filter.truth? (c.leafTruth m none α) = none) ∨
        ∃ f, c.dialect.ReadsAs .operand (c.dialect.characters sql) f ∧
          (∀ g, Reads .expression (c.dialect.lexemes (c.dialect.characters sql)) g → g = f) ∧
          (true = true → c.dialect.StandsAlone (c.dialect.characters sql) f) ∧
          ∀ α, filter.truth? (c.leafTruth m none α) = some (f.truth α)) := by
  intro c m filter options
  have hplain : Filter.AllConditions (IsPlain m) filter :=
    ⟨⟨trivial, ⟨⟨rfl, trivial⟩, ⟨rfl, trivial⟩, trivial⟩, trivial⟩, trivial⟩
  refine ⟨_, rfl, by decide +kernel, rfl, hplain, ?_⟩
  exact reads_filterClause m none rfl hplain rfl

end Compiler

end EntitySql
