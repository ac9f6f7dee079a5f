import EntitySql.Proofs.Reading.Fragment
import EntitySql.Proofs.Reading.Meaning
/-!
# Where an `OR` is left without parentheses

Raw members of a group are taken as they are. What a part of a filter leaves in the text is told by
its shape: several predicates stand in parentheses, but a single one is passed on, and if that is a
raw text with an `OR`, then so is the `OR`.
-/

namespace EntitySql

/-- What is left of a part of a filter in the text. -/
inductive Shape
  /-- No predicate. -/
  | nothing
  /-- A predicate without `OR` outside parentheses. -/
  | whole
  /-- A predicate with `OR` outside parentheses. -/
  | divided
deriving DecidableEq, Repr

/-- Whether an `OR` stands outside parentheses. -/
def Shape.isDivided : Shape → Bool
  | nothing | whole => false
  | divided => true

/-- The shape of parts that are joined and grouped: a single one keeps its own. -/
def Shape.combine (shapes : List Shape) : Shape :=
  match shapes.filter (· ≠ .nothing) with
  | [] => .nothing
  | [shape] => shape
  | _ => .whole

theorem Shape.combine_ne_nothing {shapes : List Shape} (h : shapes.filter (· ≠ .nothing) ≠ []) :
    combine shapes ≠ .nothing := by
  unfold combine
  split
  · contradiction
  · next shape hshape =>
    have hmem : shape ∈ shapes.filter (· ≠ .nothing) := hshape ▸ List.mem_singleton_self shape
    exact of_decide_eq_true (List.mem_filter.1 hmem).2
  · exact Shape.noConfusion

/-- The shape of a condition. -/
def Condition.shape : Condition → Shape
  | .value _ => .whole
  | .operators entries => .combine (entries.map fun _ => .whole)

namespace Dialect

/-- Whether the text has an `OR` outside parentheses. -/
def divides (d : Dialect) (text : List Char) : Bool :=
  (Lexeme.outline 0 (d.lexemes text)).any (·.contains .disjunction)

/-- A text that closes what it opens, with or without an `OR` outside parentheses. -/
structure Outlined (d : Dialect) (text : List Char) (divided : Bool) : Prop where
  settles : d.Settles text
  outline : ∃ roles, Lexeme.outline 0 (d.lexemes text) = some roles ∧
    (.disjunction ∈ roles ↔ divided = true)

/-- A text that closes what it opens. -/
def Balances (d : Dialect) (text : List Char) : Prop := ∃ divided, d.Outlined text divided

variable {d : Dialect} {text first second : List Char} {divided divided' : Bool}

theorem Outlined.eq_divides (h : d.Outlined text divided) : divided = d.divides text := by
  obtain ⟨roles, hroles, hdivided⟩ := h.outline
  rw [divides, hroles, Option.any_some, Bool.eq_iff_iff, ← hdivided, List.contains_iff_mem]

theorem Balances.outlined (h : d.Balances text) : d.Outlined text (d.divides text) := by
  obtain ⟨divided, h⟩ := h
  rwa [← h.eq_divides]

theorem IsPhrase.outlined (h : d.IsPhrase text) : d.Outlined text false := by
  obtain ⟨roles, hroles, hfree⟩ := h.isUnjoined
  refine ⟨h.settles, roles, hroles, iff_of_false (fun hmem => ?_) Bool.false_ne_true⟩
  exact absurd (hfree _ hmem) (by decide)

namespace Outlined

/-- Parentheses hide every `OR`. -/
theorem group (h : d.Outlined text divided) :
    d.Outlined ("(".toList ++ (text ++ ")".toList)) false := by
  obtain ⟨roles, hroles, _⟩ := h.outline
  refine ⟨settles_parenthesized h.settles, [], ?_, by simp⟩
  rw [lexemes_parenthesized h.settles]
  exact Lexeme.outline_group rfl rfl hroles

theorem negation (h : d.Outlined text divided) : d.Outlined ("NOT ".toList ++ text) divided := by
  obtain ⟨roles, hroles, hdivided⟩ := h.outline
  refine ⟨settles_not h.settles, .negation :: roles, ?_, by simpa using hdivided⟩
  rw [lexemes_not]
  exact Lexeme.outline_cons_of_role rfl (by decide) (by decide) hroles

theorem existence (h : d.Outlined text divided) :
    d.Outlined ("EXISTS ".toList ++ text) divided := by
  have hblank : (d.scan .blank "EXISTS ".toList).2 = .blank := by cases d <;> rfl
  have hexists : d.lexemes "EXISTS ".toList = [.word ['E', 'X', 'I', 'S', 'T', 'S']] := by
    cases d <;> rfl
  obtain ⟨roles, hroles, hdivided⟩ := h.outline
  refine ⟨d.settles_append_of_blank hblank h.settles, .other :: roles, ?_, by simpa using hdivided⟩
  rw [d.lexemes_append_of_blank hblank, hexists]
  exact Lexeme.outline_cons_of_role rfl (by decide) (by decide) hroles

theorem conjunction (hfirst : d.Outlined first divided) (hsecond : d.Outlined second divided') :
    d.Outlined (first ++ (" AND ".toList ++ second)) (divided || divided') := by
  obtain ⟨roles, hroles, hdivided⟩ := hfirst.outline
  obtain ⟨more, hmore, hdivided'⟩ := hsecond.outline
  refine ⟨settles_gap hfirst.settles d.isGap_and hsecond.settles,
    roles ++ .conjunction :: more, ?_, ?_⟩
  · rw [lexemes_and hfirst.settles]
    exact Lexeme.outline_join rfl rfl hroles hmore
  · simp [hdivided, hdivided']

theorem disjunction (hfirst : d.Outlined first divided) (hsecond : d.Outlined second divided') :
    d.Outlined (first ++ (" OR ".toList ++ second)) true := by
  obtain ⟨roles, hroles, _⟩ := hfirst.outline
  obtain ⟨more, hmore, _⟩ := hsecond.outline
  refine ⟨settles_gap hfirst.settles d.isGap_or hsecond.settles,
    roles ++ .disjunction :: more, ?_, by simp⟩
  rw [lexemes_or hfirst.settles]
  exact Lexeme.outline_join rfl rfl hroles hmore

end Outlined

end Dialect

namespace Predicate

variable {d : Dialect}

/-- A predicate with the given shape. -/
structure Fits (d : Dialect) (shape : Shape) (p : Predicate) : Prop where
  eq_nil_iff : p = [] ↔ shape = .nothing
  outlined : d.Outlined (p.text d) shape.isDivided

/-- Predicates with the given shapes, without the empty ones. -/
def FitsAll (d : Dialect) (shapes : List Shape) (ps : List Predicate) : Prop :=
  List.Forall₂ (Fits d) (shapes.filter (· ≠ .nothing)) ps

theorem Fits.nil : Fits d .nothing [] :=
  ⟨by simp, (Dialect.IsInert.nil.isPhrase.outlined : d.Outlined [] false)⟩

/-- A predicate that says something and has no `OR` outside parentheses. -/
theorem Fits.whole {p : Predicate} (hne : p ≠ []) (h : d.Outlined (p.text d) false) :
    Fits d .whole p := ⟨by simp [hne], h⟩

theorem Fits.negated {shape : Shape} {p : Predicate} (h : Fits d shape p) (hne : p ≠ []) :
    Fits d shape p.negated := by
  refine ⟨iff_of_false (List.cons_ne_nil _ _) fun hnothing => hne (h.eq_nil_iff.2 hnothing), ?_⟩
  rw [text_negated]
  exact h.outlined.negation

/-- A predicate in parentheses behind `NOT`. -/
theorem Fits.denied {shape : Shape} {p : Predicate} (h : Fits d shape p) :
    Fits d .whole (Predicate.negated (parenthesized p)) := by
  refine .whole (List.cons_ne_nil _ _) ?_
  rw [text_negated, text_parenthesized]
  exact h.outlined.group.negation

namespace FitsAll

variable {shapes : List Shape} {ps : List Predicate}

theorem nil : FitsAll d [] [] := List.Forall₂.nil

theorem cons {shape : Shape} {p : Predicate} (hp : Fits d shape p) (hps : FitsAll d shapes ps) :
    FitsAll d (shape :: shapes) (if p.isEmpty then ps else p :: ps) := by
  by_cases hempty : p = []
  · simpa [FitsAll, hempty, hp.eq_nil_iff.1 hempty] using hps
  · unfold FitsAll
    have hshape : shape ≠ .nothing := fun h => hempty (hp.eq_nil_iff.2 h)
    rw [List.filter_cons_of_pos (by simpa using hshape), if_neg (by simpa using hempty)]
    exact .cons hp hps

end FitsAll

/-- What is joined closes what it opens if the parts do. -/
theorem balances_join (disjunctive : Bool) {p : Predicate} {ps : List Predicate}
    (hp : d.Balances (p.text d)) (hps : ∀ q ∈ ps, d.Balances (q.text d)) :
    d.Balances ((join disjunctive (p :: ps)).text d) := by
  induction ps generalizing p with
  | nil => simpa [join, List.intercalate] using hp
  | cons q rest ih =>
    obtain ⟨_, hrest⟩ := ih (hps q (.head rest)) fun r hr => hps r (.tail q hr)
    obtain ⟨_, hp⟩ := hp
    rw [text_join_cons]
    cases disjunctive with
    | true => exact ⟨_, hp.disjunction hrest⟩
    | false => exact ⟨_, hp.conjunction hrest⟩

/-- A conjunction has an `OR` outside parentheses if a part has. -/
theorem outlined_join {shapes : List Shape} {shape : Shape} {p : Predicate} {ps : List Predicate}
    (hp : Fits d shape p) (hps : List.Forall₂ (Fits d) shapes ps) :
    d.Outlined ((join false (p :: ps)).text d) ((shape :: shapes).any Shape.isDivided) := by
  induction hps generalizing shape p with
  | nil => simpa [join, List.intercalate] using hp.outlined
  | @cons next q shapes rest hq _ ih =>
    rw [text_join_cons, List.any_cons]
    exact hp.outlined.conjunction (ih hq)

theorem balances_of_forall₂ {shapes : List Shape} {ps : List Predicate}
    (h : List.Forall₂ (Fits d) shapes ps) : ∀ p ∈ ps, d.Balances (p.text d) :=
  forall_mem_of_forall₂ (h.imp fun _ _ hp => ⟨_, hp.outlined⟩)

/-- Parts of which several stand in parentheses. -/
theorem FitsAll.joinGrouped (disjunctive : Bool) {shapes : List Shape} {ps : List Predicate}
    (h : FitsAll d shapes ps) : Fits d (.combine shapes) (.joinGrouped true disjunctive ps) := by
  unfold FitsAll at h
  have hbalances := balances_of_forall₂ h
  unfold Shape.combine
  generalize shapes.filter (· ≠ .nothing) = rest at h
  cases h with
  | nil => exact .nil
  | @cons shape p shapes rest hp hrest =>
    cases hrest with
    | nil => simpa [Predicate.joinGrouped, join, List.intercalate] using hp
    | @cons _ q _ rest _ _ =>
      obtain ⟨_, hjoined⟩ := balances_join disjunctive (hbalances p (.head _))
        fun r hr => hbalances r (.tail p hr)
      have htext : Predicate.joinGrouped true disjunctive (p :: q :: rest) =
          (join disjunctive (p :: q :: rest)).parenthesized := by
        simp [Predicate.joinGrouped]
      rw [htext]
      refine .whole (List.cons_ne_nil _ _) ?_
      rw [text_parenthesized]
      exact hjoined.group

end Predicate

namespace Compiler

open Predicate

variable {c : Compiler}

/-- The members of a group that has to be a single operand. -/
theorem fits_groupPredicate (connective : Connective) {shapes : List Shape} {ps : List Predicate}
    (h : FitsAll c.dialect shapes ps) :
    Fits c.dialect (.combine shapes) (groupPredicate connective true ps) := by
  have hjoined := h.joinGrouped connective.isDisjunctive
  unfold groupPredicate
  cases ps with
  | nil => simpa [Predicate.joinGrouped, join, List.intercalate] using hjoined
  | cons p rest =>
    have hne : Predicate.joinGrouped true connective.isDisjunctive (p :: rest) ≠ [] := by
      refine fun hempty => Shape.combine_ne_nothing ?_ (hjoined.eq_nil_iff.1 hempty)
      intro hnone
      rw [FitsAll, hnone] at h
      cases h
    rw [if_neg (by simp), Bool.true_or]
    split
    · exact hjoined.negated hne
    · exact hjoined

/-! ## Conditions -/

/-- Whether the raw SQL that a condition compares by has no connective outside parentheses. -/
def ClosesCondition (c : Compiler) (m : Member) (key : String) (condition : Condition) : Prop :=
  (∀ sql, m.computed? key = some sql → c.Closes sql) ∧ c.ClosesAll condition.raws

section Conditions

variable (m : Member) (qualifier? : Option String) {key : String}

theorem fits_comparison (hkey : ∀ sql, m.computed? key = some sql → c.Closes sql)
    (operator : FieldOperator) {v : Value} (hv : c.ClosesAll v.raws) :
    Ensures (Fits c.dialect .whole) (c.comparison m key qualifier? operator v) :=
  (ensures_comparison hkey qualifier? operator hv).mono fun _ h =>
    .whole h.ne_nil h.isPhrase.outlined

mutual

theorem fits_condition (hkey : ∀ sql, m.computed? key = some sql → c.Closes sql) :
    ∀ condition : Condition, c.ClosesAll condition.raws →
    Ensures (Fits c.dialect condition.shape) (c.condition m key qualifier? condition)
  | .value v, hraws => fits_comparison m qualifier? hkey (Condition.defaultOperator v) hraws
  | .operators entries, hraws =>
    (fits_operators hkey entries hraws).bind fun _ hps => .pure (hps.joinGrouped false)

theorem fits_operators (hkey : ∀ sql, m.computed? key = some sql → c.Closes sql) :
    ∀ entries : List (String × OperatorArgument),
    c.ClosesAll (OperatorArgument.rawsOfEntries entries) →
    Ensures (FitsAll c.dialect (entries.map fun _ => .whole)) (c.operators m key qualifier? entries)
  | [], _ => .pure .nil
  | (name, argument) :: rest, hraws =>
    (fits_operator hkey name argument hraws.left).bind fun _ hfirst =>
      (fits_operators hkey rest hraws.right).bind fun _ hothers =>
        .pure (List.Forall₂.cons hfirst hothers)

/-- What a negation denies is in parentheses, so it may be anything. -/
theorem fits_operator (hkey : ∀ sql, m.computed? key = some sql → c.Closes sql)
    (operatorKey : String) : ∀ argument : OperatorArgument, c.ClosesAll argument.raws →
    Ensures (Fits c.dialect .whole) (c.operator m key qualifier? operatorKey argument)
  | .value v, hraws => by
    unfold operator
    apply Ensures.bind_any
    intro operator
    by_cases hnegation : operator = .negation
    · subst hnegation
      exact (fits_comparison m qualifier? hkey _ hraws).bind fun _ hinner => .pure hinner.denied
    · have hplain := fits_comparison (c := c) m qualifier? hkey operator hraws
      cases operator <;> first | exact hplain | exact absurd rfl hnegation
  | .condition inner, hraws => by
    unfold operator
    apply Ensures.bind_any
    intro operator
    by_cases hnegation : operator = .negation
    · subst hnegation
      exact (fits_condition hkey inner hraws).bind fun _ hdenied => .pure hdenied.denied
    · cases operator <;> first | exact .error _ | exact absurd rfl hnegation

end

end Conditions

/-! ## Filters -/

/-- Whether a raw fragment closes what it opens. It may have connectives. -/
def Balances (c : Compiler) (sql : RawSql) : Prop :=
  ∀ (registry : Registry) (qualifier text : String),
    c.rawText registry sql qualifier = .ok text → c.dialect.Balances text.toList

/-- Whether several raw fragments close what they open. -/
def BalancesAll (c : Compiler) (sqls : List RawSql) : Prop := ∀ sql ∈ sqls, c.Balances sql

namespace BalancesAll

variable {first second : List RawSql}

theorem left (h : c.BalancesAll (first ++ second)) : c.BalancesAll first :=
  fun sql hsql => h sql (List.mem_append_left second hsql)

theorem right (h : c.BalancesAll (first ++ second)) : c.BalancesAll second :=
  fun sql hsql => h sql (List.mem_append_right first hsql)

end BalancesAll

/-- The shape of a raw member of a group. -/
def rawShape (c : Compiler) (m : Member) (qualifier? : Option String) (sql : RawSql) : Shape :=
  match c.rawText m.registry sql (qualifier?.getD "") with
  | .ok text =>
    if text.isEmpty then .nothing else if c.dialect.divides text.toList then .divided else .whole
  | .error _ => .nothing

section Filters

variable (c : Compiler) (m : Member) (qualifier? : Option String)

mutual

/-- The shape of an entry that has to be a single operand. -/
def entryShape : FilterEntry → Shape
  | .field condition => condition.shape
  | .group items => .combine (itemShapes items)
  | .search _ | .subquery _ => .whole
termination_by structural entry => entry

/-- The shape of a member of a group that has to be a single operand. -/
def itemShape : FilterItem → Shape
  | .filter entries => .combine (entryShapes entries)
  | .raw sql => c.rawShape m qualifier? sql
termination_by structural item => item

/-- The shapes of the members of a group. -/
def itemShapes : List FilterItem → List Shape
  | [] => []
  | item :: rest => itemShape item :: itemShapes rest
termination_by structural items => items

/-- The shapes of the entries of a filter. -/
def entryShapes : List (String × FilterEntry) → List Shape
  | [] => []
  | (_, entry) :: rest => entryShape entry :: entryShapes rest
termination_by structural entries => entries

end

variable {c}

/-- A subquery in parentheses behind words that leave its outline as it is. -/
theorem fits_subquery (words : String) {opening : String} (hopening : opening = words ++ "(")
    (hwords : ∀ text, c.dialect.Outlined text false →
      c.dialect.Outlined (words.toList ++ text) false)
    {sql : RawSql} (hsql : c.Balances sql) :
    Ensures (Fits c.dialect .whole) (do
      return .ofAtom (.word opening :: (← c.raw m sql qualifier?) ++ [.word ")"])) := by
  unfold raw
  cases htext : c.rawText m.registry sql (qualifier?.getD "") with
  | error e => exact .error e
  | ok text =>
    refine .pure (.whole (List.cons_ne_nil _ _) ?_)
    have houtlined := hwords _ (hsql _ _ _ htext).outlined.group
    simpa [text_ofAtom, hopening, Dialect.renderPiece] using houtlined

theorem fits_rawPredicate {sql : RawSql} (hsql : c.Balances sql) :
    Ensures (Fits c.dialect (c.rawShape m qualifier? sql)) (c.rawPredicate m qualifier? sql) := by
  unfold rawPredicate rawShape
  cases htext : c.rawText m.registry sql (qualifier?.getD "") with
  | error e => exact .error e
  | ok text =>
    refine .pure ?_
    dsimp only
    by_cases hempty : text.isEmpty = true
    · rw [if_pos hempty, if_pos hempty]
      exact .nil
    · have houtlined := (hsql _ _ _ htext).outlined
      rw [if_neg hempty, if_neg hempty]
      refine ⟨by split <;> simp [ofAtom], ?_⟩
      rw [text_ofAtom, Dialect.characters_cons, Dialect.characters_nil, List.append_nil]
      split
      · next hdivides => rwa [hdivides] at houtlined
      · next hdivides => rwa [eq_false_of_ne_true hdivides] at houtlined

mutual

theorem fits_entries : ∀ list : List (String × FilterEntry),
    c.BalancesAll (FilterEntry.rawsOfEntries list) →
    FilterEntry.AllConditionsOfEntries (c.ClosesCondition m) list →
    Ensures (FitsAll c.dialect (c.entryShapes m qualifier? list)) (c.entries m qualifier? true list)
  | [], _, _ => .pure .nil
  | (key, value) :: rest, hraws, ⟨hvalue, hrest⟩ =>
    (fits_entry key value hraws.left hvalue).bind fun _ hfirst =>
      (fits_entries rest hraws.right hrest).bind fun _ hothers => .pure (.cons hfirst hothers)

theorem fits_entry (key : String) : ∀ value : FilterEntry, c.BalancesAll value.raws →
    value.AllConditions (c.ClosesCondition m) key →
    Ensures (Fits c.dialect (c.entryShape m qualifier? value)) (c.entry m qualifier? true key value)
  | .subquery sql, hraws, _ => by
    have hsql := hraws sql (.head [])
    unfold entry
    split
    · exact fits_subquery m qualifier? "EXISTS " rfl (fun _ h => h.existence) hsql
    · split
      · exact fits_subquery m qualifier? "NOT EXISTS " rfl
          (fun _ h => h.existence.negation) hsql
      · exact .error _
  | .search request, _, _ => by
    obtain ⟨hsettles, htest⟩ := c.isTest_textSearch m request qualifier?
    rw [← text_ofAtom] at hsettles htest
    unfold entry
    split
    · exact .pure (.whole (List.cons_ne_nil _ _)
        (Dialect.IsPhrase.outlined ⟨hsettles, htest.isUnjoined⟩))
    · exact .error _
  | .group items, hraws, hitems => by
    unfold entry
    cases Connective.ofKey? key with
    | none => exact .error _
    | some connective =>
      have heach : (decide (1 < items.length) || connective.isNegated || true) = true :=
        Bool.or_true _
      simp only [heach]
      exact (fits_groupItems items hraws hitems).bind fun _ hps =>
        .pure (fits_groupPredicate connective hps)
  | .field condition, hraws, ⟨hkey, hcondition⟩ => by
    unfold entry
    split
    · exact .error _
    · exact fits_condition m qualifier? hkey condition hcondition

theorem fits_groupItems : ∀ items : List FilterItem,
    c.BalancesAll (FilterItem.rawsOfItems items) →
    FilterItem.AllConditionsOfItems (c.ClosesCondition m) items →
    Ensures (FitsAll c.dialect (c.itemShapes m qualifier? items))
      (c.groupItems m qualifier? true items)
  | [], _, _ => .pure .nil
  | item :: rest, hraws, ⟨hitem, hrest⟩ =>
    (fits_groupItem item hraws.left hitem).bind fun _ hfirst =>
      (fits_groupItems rest hraws.right hrest).bind fun _ hothers => .pure (.cons hfirst hothers)

theorem fits_groupItem : ∀ item : FilterItem, c.BalancesAll item.raws →
    item.AllConditions (c.ClosesCondition m) →
    Ensures (Fits c.dialect (c.itemShape m qualifier? item)) (c.groupItem m qualifier? true item)
  | .raw sql, hraws, _ => fits_rawPredicate m qualifier? (hraws sql (.head []))
  | .filter list, hraws, hlist => by
    unfold groupItem
    rw [Bool.or_true]
    exact (fits_entries list hraws hlist).bind fun _ hps => .pure (hps.joinGrouped false)

end

end Filters

end Compiler

end EntitySql
