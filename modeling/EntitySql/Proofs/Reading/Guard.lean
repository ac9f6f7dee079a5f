import EntitySql.Proofs.Reading.Shape
import EntitySql.Proofs.Request
/-!
# The guard against deleted rows

The guard is one more conjunct behind the entries of a filter. Read as text it is a conjunct of the
whole only if nothing in front of it has an `OR` outside parentheses, and that is so but for one
kind of filter: a raw member with an `OR` that is all that is left of an entry is not put in
parentheses.
-/

namespace EntitySql

open Lexeme

namespace Formula

/-- Whether a formula is a conjunct of another, at any depth of conjunctions. -/
inductive IsConjunctOf (part : Formula) : Formula → Prop
  | self : IsConjunctOf part part
  | left {f g : Formula} (h : IsConjunctOf part f) : IsConjunctOf part (.and f g)
  | right {f g : Formula} (h : IsConjunctOf part g) : IsConjunctOf part (.and f g)

/-- Where a formula holds, so do its conjuncts. -/
theorem IsConjunctOf.truth_eq_yes {part f : Formula} (h : part.IsConjunctOf f)
    {α : List Lexeme → Truth} (hf : f.truth α = .yes) : part.truth α = .yes := by
  induction h with
  | self => exact hf
  | left _ ih => exact ih (Truth.and_eq_yes.1 hf).1
  | right _ ih => exact ih (Truth.and_eq_yes.1 hf).2

end Formula

/-- A fragment behind `AND` is a conjunct of the whole, unless an `OR` stands in front of it. -/
theorem Reads.of_fragment_behind {ts us : List Lexeme} {both : Lexeme} {f : Formula}
    {roles : List Role} (hboth : both.role = .conjunction) (hts : outline 0 ts = some roles)
    (hus : IsFragment us) (h : Reads .expression (ts ++ both :: us) f) :
    (.disjunction ∉ roles → ∃ g, f = .and g (.atom us)) ∧
      (.disjunction ∈ roles → ∃ g g', f = .or g g') := by
  obtain ⟨more, hmore, hfree⟩ := hus.isUnjoined
  have hwhole := outline_join hboth rfl hts hmore
  generalize hall : ts ++ both :: us = all at h
  rw [hall] at hwhole
  cases h with
  | conjunct h =>
    have hnone : .disjunction ∉ roles := fun hmem => by
      obtain ⟨roles', hroles', hadmits⟩ := h.exists_outline
      obtain rfl : roles ++ .conjunction :: more = roles' :=
        Option.some.inj (hwhole.symm.trans hroles')
      exact absurd (hadmits _ (List.mem_append_left _ hmem)) (by decide)
    refine ⟨fun _ => ?_, fun hmem => absurd hmem hnone⟩
    cases h with
    | operand h =>
      exact ((hall ▸ h).not_append (by rw [hboth]; rfl) (by rw [hboth]; rfl) hts hmore).elim
    | conjunction hboth' hleft hright =>
      obtain ⟨_, hts', _⟩ := hleft.exists_outline
      obtain ⟨_, hus', hfree'⟩ := hright.exists_outline
      obtain ⟨rfl, rfl⟩ := eq_of_append_eq rfl hboth hboth' hts hts' hmore hus'
        (fun h => absurd (hfree _ h) (by decide)) (fun h => absurd (hfree' _ h) (by decide)) hall
      exact ⟨_, congrArg _ (hright.unique (.atom hus))⟩
  | @disjunction ts' us' either _ _ heither hleft hright =>
    refine ⟨fun hnone => ?_, fun _ => ⟨_, _, rfl⟩⟩
    obtain ⟨roles', hts', _⟩ := hleft.exists_outline
    obtain ⟨more', hus', _⟩ := hright.exists_outline
    have hsame := Option.some.inj (hwhole.symm.trans (outline_join heither rfl hts' hus'))
    have hmem : .disjunction ∈ roles ++ .conjunction :: more := hsame ▸ by simp
    rcases List.mem_append.1 hmem with hmem | hmem
    · exact absurd hmem hnone
    · rcases List.mem_cons.1 hmem with hmem | hmem
      · cases hmem
      · exact absurd (hfree _ hmem) (by decide)

namespace Compiler

open Predicate

variable {c : Compiler}

/-! ## The predicate of the guard -/

/-- The predicate that a field is null. -/
def guard (m : Member) (key : String) (qualifier? : Option String) : Predicate :=
  .ofAtom (column m key qualifier? ++ [.word " IS NULL"])

/-- The tokens of the predicate that a field is null. -/
def guardTokens (c : Compiler) (m : Member) (key : String) (qualifier? : Option String) :
    List Lexeme :=
  c.dialect.lexemes ((guard m key qualifier?).text c.dialect)

theorem text_guard (m : Member) (key : String) (qualifier? : Option String) :
    (guard m key qualifier?).text c.dialect =
      c.dialect.characters (column m key qualifier?) ++ (" IS ".toList ++ "NULL".toList) := by
  simp [guard, text_ofAtom, Dialect.renderPiece]

theorem isInert_guard (m : Member) (key : String) (qualifier? : Option String) :
    c.dialect.IsInert ((guard m key qualifier?).text c.dialect) := by
  have hnull : c.dialect.IsInert "NULL".toList := by cases c.dialect <;> exact ⟨rfl, by decide⟩
  rw [text_guard]
  exact (Dialect.IsInert.column m key qualifier?).gap (by cases c.dialect <;> rfl) hnull

theorem isFragment_guardTokens (m : Member) (key : String) (qualifier? : Option String) :
    IsFragment (c.guardTokens m key qualifier?) := by
  refine .of_role (isInert_guard m key qualifier?).roles ?_
  have hgap (d : Dialect) : d.isGap " IS ".toList = true := by cases d <;> rfl
  have hnull (d : Dialect) : d.lexemes "NULL".toList ≠ [] := by cases d <;> decide
  rw [guardTokens, text_guard,
    Dialect.lexemes_gap (Dialect.IsInert.column m key qualifier?).settles (hgap _)]
  exact fun h => hnull _ (List.append_eq_nil_iff.1 (List.append_eq_nil_iff.1 h).2).2

/-- A condition that a stored field is null compiles to the guard. -/
theorem ensures_entries_guard {m : Member} {key : String} (hkey : m.entity.isStored key = true)
    (qualifier? : Option String) (grouped : Bool) :
    Ensures (· = [guard m key qualifier?])
      (c.entries m qualifier? grouped [(key, .field (.value .null))]) := by
  obtain ⟨field, hfield, hstored⟩ := (Option.any_eq_true _ _).1 hkey
  have hcolumn : c.columnReference m key qualifier? = .ok (column m key qualifier?) := by
    rw [columnReference, hfield]
    simp only [Option.isNone_iff_eq_none.1 hstored]
    rfl
  have hcondition : c.condition m key qualifier? (.value .null) = .ok (guard m key qualifier?) := by
    rw [condition]
    unfold comparison
    rw [hcolumn]
    rfl
  unfold entries entry entries
  split
  · exact .error _
  · rw [hcondition]
    exact .pure rfl

theorem entries_append (m : Member) (qualifier? : Option String) (grouped : Bool)
    (first second : Filter) :
    c.entries m qualifier? grouped (first ++ second) = (do
      let ps ← c.entries m qualifier? grouped first
      let qs ← c.entries m qualifier? grouped second
      return ps ++ qs) := by
  induction first with
  | nil => simp [entries]
  | cons entry rest ih =>
    obtain ⟨key, value⟩ := entry
    simp only [List.cons_append, entries, ih, bind_assoc, pure_bind]
    congr! 4 with p ps qs
    split <;> rfl

/-! ## The clause of a filter with its guard -/

theorem text_join_concat (d : Dialect) (p q : Predicate) (ps : List Predicate) :
    (join false (p :: (ps ++ [q]))).text d =
      (join false (p :: ps)).text d ++ (" AND ".toList ++ q.text d) := by
  induction ps generalizing p with
  | nil => simpa [join, List.intercalate] using text_join_cons (d := d) false p q []
  | cons next rest ih =>
    rw [List.cons_append, text_join_cons, ih, text_join_cons]
    simp

theorem join_concat_ne_nil {q : Predicate} (hq : q ≠ []) (ps : List Predicate) :
    join false (ps ++ [q]) ≠ [] := by
  cases ps with
  | nil => simpa [join, List.intercalate] using hq
  | cons p rest =>
    intro hnone
    have htext := text_join_concat .postgres p q rest
    rw [← List.cons_append, hnone] at htext
    cases (List.append_eq_nil_iff.1 (List.append_eq_nil_iff.1 htext.symm).2).1

/-- The filter of a criterion; no criterion asks for nothing. -/
def criterionFilter (m : Member) (criterion? : Option Criterion) : Filter :=
  (criterion?.map (filterOf m)).getD []

/-- The clause of the entries of a filter and no others. -/
def plainClause (c : Compiler) (m : Member) (filter : Filter) (options : FilterOptions) :
    Except QueryError Sql := do
  let parts ← c.entries m options.qualifier? (1 < filter.length || options.grouped) filter
  return clauseOf options.clause (.joinGrouped options.grouped false parts)

/-- A filter that speaks of deleted rows itself has no guard, and neither has one whose guard is
switched off. -/
theorem criterionClause_of_unguarded {m : Member} {key : String}
    (hkey : m.entity.softDelete? = some key) {criterion? : Option Criterion}
    {options : FilterOptions}
    (h : options.softDelete? = some false ∨
      Entries.has key (criterionFilter m criterion?) = true) :
    c.criterionClause m criterion? options =
      c.plainClause m (criterionFilter m criterion?) options := by
  have hguard : softDeleteGuard m (criterion?.map (filterOf m)) options = [] := by
    unfold softDeleteGuard
    simp only [hkey]
    refine if_pos ?_
    rcases h with h | h
    · simp [h]
    · cases criterion? with
      | none => cases h
      | some criterion =>
        have hany : (Entries.has key) (filterOf m criterion) = true := h
        simp [hany]
  simp only [criterionClause, filterClause, filterPredicate, hguard, List.append_nil, bind_assoc,
    pure_bind]
  rfl

/-- The guard stands behind the predicates of the filter. -/
theorem ensures_filterPredicate_guarded {m : Member} {key : String}
    (hkey : m.entity.softDelete? = some key) (hstored : m.entity.isStored key = true)
    {criterion? : Option Criterion} {options : FilterOptions} (hclause : options.clause = .where)
    (hgrouped : options.grouped = false) (hoption : options.softDelete? ≠ some false)
    (hfilter : Entries.has key (criterionFilter m criterion?) = false)
    (hraws : c.BalancesAll (FilterEntry.rawsOfEntries (criterionFilter m criterion?)))
    (hconditions : Filter.AllConditions (c.ClosesCondition m) (criterionFilter m criterion?)) :
    Ensures (fun p => ∃ ps,
        FitsAll c.dialect (c.entryShapes m options.qualifier? (criterionFilter m criterion?)) ps ∧
          p = join false (ps ++ [guard m key options.qualifier?]))
      (c.filterPredicate m (criterion?.map (filterOf m)) options) := by
  have hguard : softDeleteGuard m (criterion?.map (filterOf m)) options =
      [(key, .field (.value .null))] := by
    have hany : (criterion?.map (filterOf m)).any (Entries.has key) = false := by
      cases criterion? with
      | none => rfl
      | some criterion => exact hfilter
    unfold softDeleteGuard
    simp only [hkey]
    exact if_neg (by simp [hclause, hoption, hany])
  have hentries : ∀ grouped, (criterionFilter m criterion? ≠ [] → grouped = true) →
      Ensures (FitsAll c.dialect
        (c.entryShapes m options.qualifier? (criterionFilter m criterion?)))
        (c.entries m options.qualifier? grouped (criterionFilter m criterion?)) := by
    intro grouped hseveral
    rcases eq_or_ne (criterionFilter m criterion?) [] with hnone | hsome
    · rw [hnone]
      exact .pure .nil
    · rw [hseveral hsome]
      exact fits_entries m options.qualifier? _ hraws hconditions
  unfold filterPredicate
  simp only [hguard, hgrouped, entries_append, bind_assoc, pure_bind]
  refine (hentries _ fun hsome => ?_).bind fun ps hps =>
    (ensures_entries_guard hstored options.qualifier? _).bind fun qs hqs => .pure ⟨ps, hps, ?_⟩
  · have := List.length_pos_of_ne_nil hsome
    simpa [criterionFilter] using this
  · rw [hqs]
    rfl

/-! ## What the guard is worth -/

/-- The guard is a conjunct of whatever the joined text is read as, unless a predicate in front of
it has an `OR` outside parentheses. -/
theorem isConjunctOf_guard_iff {m : Member} {key : String} {qualifier? : Option String}
    {shapes : List Shape} {ps : List Predicate} (hps : FitsAll c.dialect shapes ps) {f : Formula}
    (hf : Reads .expression
      (c.dialect.lexemes ((join false (ps ++ [guard m key qualifier?])).text c.dialect)) f) :
    (Formula.atom (c.guardTokens m key qualifier?)).IsConjunctOf f ↔
      shapes.any Shape.isDivided = false := by
  have hfragment := c.isFragment_guardTokens m key qualifier?
  have hdivided : shapes.any Shape.isDivided =
      (shapes.filter (· ≠ .nothing)).any Shape.isDivided := by
    rw [List.any_filter]
    congr! 2 with shape
    cases shape <;> rfl
  rw [hdivided]
  unfold FitsAll at hps
  generalize shapes.filter (· ≠ .nothing) = rest at hps
  cases hps with
  | nil =>
    have halone : join false ([] ++ [guard m key qualifier?]) = guard m key qualifier? := by
      simp [join, List.intercalate]
    rw [halone] at hf
    obtain rfl : f = .atom _ := hf.unique (.conjunct (.operand (.atom hfragment)))
    exact iff_of_true .self rfl
  | @cons shape p shapes ps hp hrest =>
    have hfirst := outlined_join hp hrest
    obtain ⟨roles, hroles, hmem⟩ := hfirst.outline
    rw [List.cons_append, text_join_concat, Dialect.lexemes_and hfirst.settles] at hf
    obtain ⟨hconjunct, hdisjunct⟩ := hf.of_fragment_behind rfl hroles hfragment
    cases hany : (shape :: shapes).any Shape.isDivided with
    | false =>
      have hnone : .disjunction ∉ roles := fun h => by simp [hmem.1 h] at hany
      obtain ⟨g, rfl⟩ := hconjunct hnone
      exact iff_of_true (.right .self) rfl
    | true =>
      obtain ⟨g, g', rfl⟩ := hdisjunct (hmem.2 hany)
      refine iff_of_false ?_ (by simp)
      rintro ⟨⟩

/-- The statement of a request on an entity whose deleted rows are marked by a stored field. Unless
the filter speaks of the field or the guard is switched off, the statement only is about rows whose
field is null if no part of the filter has an `OR` outside parentheses, and then and only then is
that a conjunct of its condition. Else it has the entries of the filter and no guard. -/
theorem guards_unless_divided {m : Member} {key : String} (hkey : m.entity.softDelete? = some key)
    (hstored : m.entity.isStored key = true) {r : Request} {criterion? : Option Criterion}
    {options : FilterOptions} (hrows : r.rows? m = some (criterion?, options))
    (hraws : c.BalancesAll (FilterEntry.rawsOfEntries (criterionFilter m criterion?)))
    (hconditions : Filter.AllConditions (c.ClosesCondition m) (criterionFilter m criterion?))
    {sql : Sql} (h : c.statement m r = .ok sql) :
    ∃ before rows after, sql = before ++ rows ++ after ∧
      c.criterionClause m criterion? options = .ok rows ∧
      (options.softDelete? ≠ some false → Entries.has key (criterionFilter m criterion?) = false →
        ∃ body, c.dialect.characters rows = " WHERE ".toList ++ body ∧
          ∀ f, Reads .expression (c.dialect.lexemes body) f →
            ((Formula.atom (c.guardTokens m key options.qualifier?)).IsConjunctOf f ↔
              (c.entryShapes m options.qualifier? (criterionFilter m criterion?)).any
                Shape.isDivided = false) ∧
            ((c.entryShapes m options.qualifier? (criterionFilter m criterion?)).any
                Shape.isDivided = false →
              ∀ α : List Lexeme → Truth, f.truth α = .yes →
                α (c.guardTokens m key options.qualifier?) = .yes)) ∧
      (options.softDelete? = some false ∨
          Entries.has key (criterionFilter m criterion?) = true →
        c.plainClause m (criterionFilter m criterion?) options = .ok rows) := by
  obtain ⟨before, rows, after, hclause, hsql⟩ := c.contains_rows m hrows sql h
  obtain ⟨hwhere, hgrouped⟩ := r.rows?_where hrows
  refine ⟨before, rows, after, hsql, hclause, fun hoption hfilter => ?_, fun hunguarded => ?_⟩
  · obtain ⟨p, hp, hclause⟩ := ok_of_bind_eq_ok hclause
    obtain ⟨ps, hps, rfl⟩ := ensures_filterPredicate_guarded hkey hstored hwhere hgrouped hoption
      hfilter hraws hconditions p hp
    have hne : (join false (ps ++ [guard m key options.qualifier?])).isEmpty = false :=
      List.isEmpty_eq_false_iff.2 (join_concat_ne_nil (by simp [guard, ofAtom]) ps)
    refine ⟨(join false (ps ++ [guard m key options.qualifier?])).text c.dialect, ?_, ?_⟩
    · cases hclause
      simp [clauseOf, hne, hwhere, Predicate.text, Dialect.renderPiece]
    · intro f hf
      have hiff := isConjunctOf_guard_iff hps hf
      exact ⟨hiff, fun hwhole α hα => (hiff.2 hwhole).truth_eq_yes hα⟩
  · rw [criterionClause_of_unguarded hkey hunguarded] at hclause
    exact hclause

/-! ## Raw alternatives -/

/-- An entity whose deleted rows are marked. -/
def markedUnit : Member where
  registry := {}
  entity :=
    { name := "Unit"
      fields := (Assoc.empty : Assoc Field).insert "deletedAt" { type := .timestamp }
      softDelete? := some "deletedAt" }

/-- A compiler for MySQL that knows no raw SQL but literals. -/
def literalCompiler : Compiler where
  dialect := .mysql
  expander _ _ := .ok ""

/-- The tokens of an equation of a column and a digit. -/
def equationTokens (column digit : Char) : List Lexeme :=
  [.word [column], .symbol '=', .word [digit]]

theorem reads_equationTokens (column digit : Char)
    (h : ∀ t ∈ equationTokens column digit, t.role = .other) :
    Reads .operand (equationTokens column digit) (.atom (equationTokens column digit)) :=
  .atom (.of_role h (List.cons_ne_nil _ _))

/-- Raw alternatives that stand beside others are in parentheses, and the rows are those whose field
is null. -/
theorem guards_unless_divided_beside :
    let c := literalCompiler
    let filter : Filter :=
      [("$or", .group [.raw (.literal "a = 1 OR b = 2"), .raw (.literal "c = 3")])]
    let body : String := "(a = 1 OR b = 2 OR c = 3) AND `deletedAt` IS NULL"
    ∃ sql, c.statement markedUnit (.delete (some (.filter filter)) none) = .ok sql ∧
      String.ofList (c.dialect.characters sql) =
        "UPDATE `Unit` SET `deletedAt` = CURRENT_TIMESTAMP WHERE " ++ body ∧
      (∃ f, Reads .expression (c.dialect.lexemes body.toList) f) ∧
      ∀ f, Reads .expression (c.dialect.lexemes body.toList) f →
        ∀ α : List Lexeme → Truth,
          f.truth α = .yes → α (c.guardTokens markedUnit "deletedAt" none) = .yes := by
  intro c filter body
  have hraws : c.BalancesAll (FilterEntry.rawsOfEntries filter) := by
    intro sql hsql
    rcases List.mem_cons.1 hsql with rfl | hsql
    · rintro _ _ _ ⟨⟩
      exact ⟨true, rfl, _, rfl, by decide⟩
    · obtain rfl := List.mem_singleton.1 hsql
      rintro _ _ _ ⟨⟩
      exact ⟨false, rfl, _, rfl, by decide⟩
  have hconditions : Filter.AllConditions (c.ClosesCondition markedUnit) filter :=
    ⟨⟨trivial, trivial, trivial⟩, trivial⟩
  have hkey : markedUnit.entity.softDelete? = some "deletedAt" := rfl
  have hrows : (Request.delete (some (.filter filter)) none).rows? markedUnit =
      some (some (.filter filter), { softDelete? := none }) := rfl
  have hlexemes : c.dialect.lexemes body.toList =
      (.symbol '(' :: ((equationTokens 'a' '1' ++ .word ['O', 'R'] :: equationTokens 'b' '2') ++
        .word ['O', 'R'] :: equationTokens 'c' '3') ++ [.symbol ')']) ++
        .word ['A', 'N', 'D'] :: c.guardTokens markedUnit "deletedAt" none := by decide +kernel
  have halternatives : Reads .expression
      ((equationTokens 'a' '1' ++ .word ['O', 'R'] :: equationTokens 'b' '2') ++
        .word ['O', 'R'] :: equationTokens 'c' '3')
      (.or (.or (.atom (equationTokens 'a' '1')) (.atom (equationTokens 'b' '2')))
        (.atom (equationTokens 'c' '3'))) :=
    .disjunction rfl (.disjunction rfl
      (.conjunct (.operand (reads_equationTokens 'a' '1' (by decide))))
      (.operand (reads_equationTokens 'b' '2' (by decide))))
      (.operand (reads_equationTokens 'c' '3' (by decide)))
  have hreads : ∃ f, Reads .expression (c.dialect.lexemes body.toList) f := by
    rw [hlexemes]
    exact ⟨_, .conjunct (.conjunction rfl (.operand (.group rfl rfl halternatives))
      (.atom (isFragment_guardTokens markedUnit "deletedAt" none)))⟩
  refine ⟨_, rfl, by decide +kernel, hreads, ?_⟩
  obtain ⟨_, rows, _, _, hclause, hguarded, _⟩ :=
    guards_unless_divided (c := c) hkey rfl hrows hraws hconditions rfl
  obtain ⟨body', hbody, hreads⟩ := hguarded (by simp) rfl
  obtain rfl : body.toList = body' := by
    obtain rfl := Except.ok.inj hclause
    exact List.append_cancel_left (.trans (by decide +kernel) hbody)
  exact fun f hf => (hreads f hf).2 rfl

/-- Raw alternatives that stand alone are not in parentheses: the guard is part of the second one,
and where the first one holds the row may be a deleted one. -/
theorem divided_alone :
    let c := literalCompiler
    let filter : Filter := [("$and", .group [.raw (.literal "a = 1 OR b = 2")])]
    let body : String := "a = 1 OR b = 2 AND `deletedAt` IS NULL"
    ∃ sql, c.statement markedUnit (.delete (some (.filter filter)) none) = .ok sql ∧
      String.ofList (c.dialect.characters sql) =
        "UPDATE `Unit` SET `deletedAt` = CURRENT_TIMESTAMP WHERE " ++ body ∧
      ∃ f, Reads .expression (c.dialect.lexemes body.toList) f ∧
        ∃ α : List Lexeme → Truth,
          f.truth α = .yes ∧ α (c.guardTokens markedUnit "deletedAt" none) = .no := by
  intro c filter body
  have hlexemes : c.dialect.lexemes body.toList =
      equationTokens 'a' '1' ++ .word ['O', 'R'] ::
        (equationTokens 'b' '2' ++ .word ['A', 'N', 'D'] ::
          c.guardTokens markedUnit "deletedAt" none) := by decide +kernel
  have hreads : Reads .expression (c.dialect.lexemes body.toList)
      (.or (.atom (equationTokens 'a' '1'))
        (.and (.atom (equationTokens 'b' '2'))
          (.atom (c.guardTokens markedUnit "deletedAt" none)))) := by
    rw [hlexemes]
    exact .disjunction rfl (.conjunct (.operand (reads_equationTokens 'a' '1' (by decide))))
      (.conjunction rfl (.operand (reads_equationTokens 'b' '2' (by decide)))
        (.atom (isFragment_guardTokens markedUnit "deletedAt" none)))
  let α (ts : List Lexeme) : Truth :=
    if ts = c.guardTokens markedUnit "deletedAt" none then .no else .yes
  exact ⟨_, rfl, by decide +kernel, _, hreads, α, by decide +kernel, if_pos rfl⟩

end Compiler

end EntitySql
