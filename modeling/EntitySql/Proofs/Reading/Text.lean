import EntitySql.Compile.Predicate
import EntitySql.Proofs.Lexing.Numeral
import EntitySql.Proofs.Reading.Grammar
import Mathlib.Data.List.Forall2
/-!
# The texts of conditions

The connectives stand between blanks, so the tokens of a joined text are those of its parts with a
keyword between them, and the reading of a predicate is put together from the readings of its parts.
-/

namespace EntitySql

open Lexeme Lexer

namespace Dialect

/-! ## Gaps -/

/-- A text that ends the token in front of it and leaves the lexer between two tokens. -/
def isGap (d : Dialect) (text : List Char) : Bool :=
  text.head?.any isBreak && (d.scan .blank text).2 == .blank

variable {d : Dialect}

theorem exists_of_isGap {gap : List Char} (h : d.isGap gap = true) :
    ∃ c rest, gap = c :: rest ∧ isBreak c = true ∧ (d.scan .blank gap).2 = .blank := by
  cases gap with
  | nil => cases h
  | cons c rest =>
    simp only [isGap, List.head?_cons, Option.any_some, Bool.and_eq_true, beq_iff_eq] at h
    exact ⟨c, rest, rfl, h.1, h.2⟩

/-- The tokens on both sides of a gap do not touch. -/
theorem lexemes_gap {first gap : List Char} (hfirst : d.Settles first) (hgap : d.isGap gap = true)
    (second : List Char) :
    d.lexemes (first ++ (gap ++ second)) =
      d.lexemes first ++ (d.lexemes gap ++ d.lexemes second) := by
  obtain ⟨c, rest, rfl, hbreak, hblank⟩ := exists_of_isGap hgap
  rw [List.cons_append, d.lexemes_append_of_isBreak hfirst hbreak, ← List.cons_append,
    d.lexemes_append_of_blank hblank]

theorem settles_gap {first gap second : List Char} (hfirst : d.Settles first)
    (hgap : d.isGap gap = true) (hsecond : d.Settles second) :
    d.Settles (first ++ (gap ++ second)) := by
  obtain ⟨c, rest, rfl, hbreak, hblank⟩ := exists_of_isGap hgap
  rw [List.cons_append]
  refine d.settles_append_of_isBreak hfirst hbreak ?_
  rw [← List.cons_append]
  exact d.settles_append_of_blank hblank hsecond

/-- What holds of the parts and is kept by joining two texts holds of the joined parts. -/
theorem intercalate_induction {P : List Char → Prop} {separator : Sql} (hnil : P [])
    (hjoin : ∀ first second, P first → P second → P (first ++ (d.characters separator ++ second)))
    {parts : List Sql} (hparts : ∀ sql ∈ parts, P (d.characters sql)) :
    P (d.characters (List.intercalate separator parts)) := by
  induction parts with
  | nil => exact hnil
  | cons first rest ih =>
    have hfirst := hparts first (.head rest)
    have hrest := ih fun sql hsql => hparts sql (.tail first hsql)
    cases rest with
    | nil => simpa [List.intercalate] using hfirst
    | cons second rest =>
      simp only [List.intercalate, List.intersperse_cons_cons, List.flatten_cons,
        characters_append] at hrest ⊢
      exact hjoin _ _ hfirst hrest

/-! ## Keywords and parentheses -/

section Keywords

variable {text first : List Char}

theorem lexemes_parenthesized (h : d.Settles text) :
    d.lexemes ("(".toList ++ (text ++ ")".toList)) =
      .symbol '(' :: d.lexemes text ++ [.symbol ')'] := by
  have hopen : (d.scan .blank "(".toList).2 = .blank := by cases d <;> rfl
  have hfirst : d.lexemes "(".toList = [.symbol '('] := by cases d <;> rfl
  have hlast : d.lexemes (')' :: []) = [.symbol ')'] := by cases d <;> rfl
  rw [d.lexemes_append_of_blank hopen, hfirst, show ")".toList = ')' :: [] from rfl,
    d.lexemes_append_of_isBreak h (by decide), hlast]
  rfl

theorem settles_parenthesized (h : d.Settles text) :
    d.Settles ("(".toList ++ (text ++ ")".toList)) := by
  have hopen : (d.scan .blank "(".toList).2 = .blank := by cases d <;> rfl
  have hclose : d.Settles ")".toList := by cases d <;> rfl
  exact d.settles_append_of_blank hopen (d.settles_append_of_isBreak h (by decide) hclose)

theorem scan_not : (d.scan .blank "NOT ".toList).2 = .blank := by cases d <;> rfl

theorem lexemes_not (text : List Char) :
    d.lexemes ("NOT ".toList ++ text) = .word ['N', 'O', 'T'] :: d.lexemes text := by
  have hnot : d.lexemes "NOT ".toList = [.word ['N', 'O', 'T']] := by cases d <;> rfl
  rw [d.lexemes_append_of_blank scan_not, hnot]
  rfl

theorem settles_not (h : d.Settles text) : d.Settles ("NOT ".toList ++ text) :=
  d.settles_append_of_blank scan_not h

theorem isGap_and (d : Dialect) : d.isGap " AND ".toList = true := by cases d <;> rfl

theorem isGap_or (d : Dialect) : d.isGap " OR ".toList = true := by cases d <;> rfl

theorem lexemes_and (h : d.Settles first) (second : List Char) :
    d.lexemes (first ++ (" AND ".toList ++ second)) =
      d.lexemes first ++ .word ['A', 'N', 'D'] :: d.lexemes second := by
  have hand : d.lexemes " AND ".toList = [.word ['A', 'N', 'D']] := by cases d <;> rfl
  rw [lexemes_gap h d.isGap_and, hand]
  rfl

theorem lexemes_or (h : d.Settles first) (second : List Char) :
    d.lexemes (first ++ (" OR ".toList ++ second)) =
      d.lexemes first ++ .word ['O', 'R'] :: d.lexemes second := by
  have hor : d.lexemes " OR ".toList = [.word ['O', 'R']] := by cases d <;> rfl
  rw [lexemes_gap h d.isGap_or, hor]
  rfl

end Keywords

/-! ## Readings of texts -/

/-- A text that is read as a formula and leaves the lexer at the end of a token. -/
structure ReadsAs (d : Dialect) (level : Level) (text : List Char) (f : Formula) : Prop where
  settles : d.Settles text
  reads : Reads level (d.lexemes text) f

namespace ReadsAs

variable {text first second : List Char} {f g : Formula}

/-- A tighter text stands for a looser one. -/
theorem toExpression {level : Level} (h : d.ReadsAs level text f) :
    d.ReadsAs .expression text f := by
  refine ⟨h.settles, ?_⟩
  cases level with
  | operand => exact .conjunct (.operand h.reads)
  | conjunction => exact .conjunct h.reads
  | expression => exact h.reads

theorem toConjunction (h : d.ReadsAs .operand text f) : d.ReadsAs .conjunction text f :=
  ⟨h.settles, .operand h.reads⟩

/-- Anything is an operand between parentheses. -/
theorem group {level : Level} (h : d.ReadsAs level text f) :
    d.ReadsAs .operand ("(".toList ++ (text ++ ")".toList)) f := by
  refine ⟨settles_parenthesized h.settles, ?_⟩
  rw [lexemes_parenthesized h.settles]
  exact .group rfl rfl h.toExpression.reads

/-- An operand behind `NOT` is denied. -/
theorem negation (h : d.ReadsAs .operand text f) :
    d.ReadsAs .operand ("NOT ".toList ++ text) (.not f) := by
  refine ⟨settles_not h.settles, ?_⟩
  rw [lexemes_not]
  exact .negation rfl h.reads

theorem conjunction (hfirst : d.ReadsAs .conjunction first f)
    (hsecond : d.ReadsAs .operand second g) :
    d.ReadsAs .conjunction (first ++ (" AND ".toList ++ second)) (.and f g) := by
  refine ⟨settles_gap hfirst.settles d.isGap_and hsecond.settles, ?_⟩
  rw [lexemes_and hfirst.settles]
  exact .conjunction rfl hfirst.reads hsecond.reads

theorem disjunction (hfirst : d.ReadsAs .expression first f)
    (hsecond : d.ReadsAs .conjunction second g) :
    d.ReadsAs .expression (first ++ (" OR ".toList ++ second)) (.or f g) := by
  refine ⟨settles_gap hfirst.settles d.isGap_or hsecond.settles, ?_⟩
  rw [lexemes_or hfirst.settles]
  exact .disjunction rfl hfirst.reads hsecond.reads

/-- The level of texts with one connective between them. -/
def joinLevel (disjunctive : Bool) : Level := if disjunctive then .expression else .conjunction

/-- One more operand behind a connective. -/
theorem connective (disjunctive : Bool) (hfirst : d.ReadsAs (joinLevel disjunctive) first f)
    (hsecond : d.ReadsAs .operand second g) :
    d.ReadsAs (joinLevel disjunctive)
      (first ++ ((if disjunctive then " OR " else " AND ").toList ++ second))
      ((if disjunctive then Formula.or else .and) f g) := by
  cases disjunctive with
  | true => exact hfirst.disjunction hsecond.toConjunction
  | false => exact hfirst.conjunction hsecond

end ReadsAs

/-- A text that keeps its formula behind `NOT` and on either side of a connective. -/
structure StandsAlone (d : Dialect) (text : List Char) (f : Formula) : Prop where
  negation : d.ReadsAs .operand ("NOT ".toList ++ text) (.not f)
  conjunction : ∀ other g, d.ReadsAs .operand other g →
    d.ReadsAs .conjunction (text ++ (" AND ".toList ++ other)) (.and f g) ∧
      d.ReadsAs .conjunction (other ++ (" AND ".toList ++ text)) (.and g f)
  disjunction : ∀ other g, d.ReadsAs .operand other g →
    d.ReadsAs .expression (text ++ (" OR ".toList ++ other)) (.or f g) ∧
      d.ReadsAs .expression (other ++ (" OR ".toList ++ text)) (.or g f)

theorem ReadsAs.standsAlone {text : List Char} {f : Formula} (h : d.ReadsAs .operand text f) :
    d.StandsAlone text f where
  negation := h.negation
  conjunction _ _ hother :=
    ⟨h.toConjunction.conjunction hother, hother.toConjunction.conjunction h⟩
  disjunction _ _ hother :=
    ⟨h.toExpression.disjunction hother.toConjunction,
      hother.toExpression.disjunction h.toConjunction⟩

end Dialect

/-- The level of a predicate that has to be a single operand, or need not be. -/
def Level.ofGrouped (grouped : Bool) : Level := if grouped then .operand else .expression

/-! ## Predicates -/

namespace Predicate

/-- The characters of a predicate. -/
def text (d : Dialect) (p : Predicate) : List Char := d.characters p.toSql

variable {d : Dialect}

theorem text_parenthesized (p : Predicate) :
    p.parenthesized.text d = "(".toList ++ (p.text d ++ ")".toList) := by
  simp [text, toSql, parenthesized, Token.toSql, Dialect.renderPiece]

theorem text_negated (p : Predicate) : p.negated.text d = "NOT ".toList ++ p.text d := by
  simp [text, toSql, negated, Token.toSql, Dialect.renderPiece]

theorem text_join_cons (disjunctive : Bool) (p q : Predicate) (rest : List Predicate) :
    (join disjunctive (p :: q :: rest)).text d =
      p.text d ++ ((if disjunctive then " OR " else " AND ").toList ++
        (join disjunctive (q :: rest)).text d) := by
  cases disjunctive <;>
    simp [text, toSql, join, List.intercalate, Token.toSql, Dialect.renderPiece]

/-- Operands behind a text, each behind a connective. The induction moves them to the text one by
one, since readings lean to the left. -/
theorem readsAs_append_join {disjunctive : Bool} {ps : List Predicate} {fs : List Formula}
    (h : List.Forall₂ (fun p f => d.ReadsAs .operand (p.text d) f) ps fs) (hne : ps ≠ [])
    {first : List Char} {f : Formula}
    (hfirst : d.ReadsAs (Dialect.ReadsAs.joinLevel disjunctive) first f) :
    d.ReadsAs (Dialect.ReadsAs.joinLevel disjunctive)
      (first ++ ((if disjunctive then " OR " else " AND ").toList ++ (join disjunctive ps).text d))
      (Formula.joined disjunctive f fs) := by
  induction h generalizing first f with
  | nil => exact absurd rfl hne
  | @cons p g rest gs hp hrest ih =>
    have hnext := hfirst.connective disjunctive hp
    cases hrest with
    | nil => simpa [join, List.intercalate, Formula.joined] using hnext
    | @cons q _ rest _ hq hrest =>
      rw [text_join_cons, ← List.append_assoc, ← List.append_assoc,
        List.append_assoc first]
      exact ih (List.cons_ne_nil q rest) hnext

/-- Parts that are joined, in parentheses where they have to be. A part that is no operand stands
alone. -/
theorem readsAs_joinGrouped {grouped each : Bool} (disjunctive : Bool) {p : Predicate} {f : Formula}
    {ps : List Predicate} {fs : List Formula}
    (hp : d.ReadsAs (.ofGrouped each) (p.text d) f)
    (hps : List.Forall₂ (fun p f => d.ReadsAs (.ofGrouped each) (p.text d) f) ps fs)
    (hseveral : ps ≠ [] → each = true) (hgrouped : grouped = true → each = true) :
    d.ReadsAs (.ofGrouped grouped) ((joinGrouped grouped disjunctive (p :: ps)).text d)
      (Formula.joined disjunctive f fs) := by
  cases hps with
  | nil =>
    have hjoined : joinGrouped grouped disjunctive [p] = p := by
      simp [joinGrouped, join, List.intercalate]
    rw [hjoined]
    cases grouped with
    | true => rwa [hgrouped rfl] at hp
    | false => exact hp.toExpression
  | @cons q g rest gs hq hrest =>
    obtain rfl : each = true := hseveral (List.cons_ne_nil q rest)
    have hfirst : d.ReadsAs (Dialect.ReadsAs.joinLevel disjunctive) (p.text d) f := by
      cases disjunctive with
      | true => exact hp.toExpression
      | false => exact hp.toConjunction
    have hjoined := readsAs_append_join (.cons hq hrest) (List.cons_ne_nil q rest) hfirst
    rw [← text_join_cons] at hjoined
    cases grouped with
    | true =>
      have htext : joinGrouped true disjunctive (p :: q :: rest) =
          (join disjunctive (p :: q :: rest)).parenthesized := by
        simp [joinGrouped]
      rw [htext, text_parenthesized]
      exact hjoined.group
    | false => exact hjoined.toExpression

end Predicate

end EntitySql
