import EntitySql.Compile.Predicate
import EntitySql.Proofs.Lexing.Numeral
import EntitySql.Proofs.Lexing.Redaction
import EntitySql.Query.Error
/-!
# Twins

What is compiled from two inputs that differ in their texts alone: `Sql.Twin` relates the pieces,
`Predicate.Twin` the tokens of a condition, and `Agree` says of two outcomes that both are results
in a relation or both are the same failure. A statement is complete if it is a twin of itself.
-/

namespace EntitySql

open Lexer

/-! ## Outcomes -/

/-- Two related results, or the same failure twice. -/
inductive Agree {α β : Type} (R : α → β → Prop) :
    Except QueryError α → Except QueryError β → Prop
  | ok {a : α} {b : β} (h : R a b) : Agree R (.ok a) (.ok b)
  | error (e : QueryError) : Agree R (.error e) (.error e)

namespace Agree

variable {α β γ δ : Type} {R : α → β → Prop} {S : γ → δ → Prop}

theorem pure {a : α} {b : β} (h : R a b) :
    Agree R (Pure.pure a : Except QueryError α) (Pure.pure b) := .ok h

theorem bind {x : Except QueryError α} {y : Except QueryError β} {f : α → Except QueryError γ}
    {g : β → Except QueryError δ} (hxy : Agree R x y)
    (hfg : ∀ a b, R a b → Agree S (f a) (g b)) : Agree S (x >>= f) (y >>= g) := by
  cases hxy with
  | ok h => exact hfg _ _ h
  | error e => exact .error e

/-- The same computation goes on in two ways. -/
theorem bind_same {x : Except QueryError α} {f : α → Except QueryError γ}
    {g : α → Except QueryError δ} (hfg : ∀ a, x = .ok a → Agree S (f a) (g a)) :
    Agree S (x >>= f) (x >>= g) := by
  cases x with
  | error e => exact .error e
  | ok a => exact hfg a rfl

theorem symm {x : Except QueryError α} {y : Except QueryError β} (h : Agree R x y) :
    Agree (fun b a => R a b) y x := by
  cases h with
  | ok h => exact .ok h
  | error e => exact .error e

theorem mono {R' : α → β → Prop} {x : Except QueryError α} {y : Except QueryError β}
    (h : Agree R x y) (hR : ∀ a b, R a b → R' a b) : Agree R' x y := by
  cases h with
  | ok h => exact .ok (hR _ _ h)
  | error e => exact .error e

theorem trans {T : β → γ → Prop} {U : α → γ → Prop} {x : Except QueryError α}
    {y : Except QueryError β} {z : Except QueryError γ} (hxy : Agree R x y) (hyz : Agree T y z)
    (hU : ∀ a b c, R a b → T b c → U a c) : Agree U x z := by
  cases hxy with
  | error e =>
    cases hyz
    exact .error e
  | ok hab =>
    cases hyz with
    | ok hbc => exact .ok (hU _ _ _ hab hbc)

/-- Related items give related lists of results. -/
theorem mapM {f : α → Except QueryError γ} {g : β → Except QueryError δ} {as : List α}
    {bs : List β} (h : List.Forall₂ (fun a b => Agree S (f a) (g b)) as bs) :
    Agree (List.Forall₂ S) (as.mapM f) (bs.mapM g) := by
  induction h with
  | nil => exact .pure .nil
  | cons hab _ ih =>
    rw [List.mapM_cons, List.mapM_cons]
    exact hab.bind fun _ _ hfirst => ih.bind fun _ _ hrest => .pure (.cons hfirst hrest)

end Agree

/-! ## Pieces -/

namespace Sql

variable {d : Dialect}

namespace Piece.Twin

/-- Words of the language open no quotation. -/
theorem word {text : String} (h : text.toList.all isPlain = true := by decide) :
    Twin d (.word text) (.word text) :=
  .same (Dialect.Complete.of_isPlain d h)

theorem name (identifier : String) : Twin d (.name identifier) (.name identifier) :=
  .same (d.complete_quoteName identifier)

theorem bytes (content : List UInt8) : Twin d (.bytes content) (.bytes content) :=
  .same (d.complete_quoteBytes content)

theorem blankLiteral : Twin d (.standardLiteral " ") (.standardLiteral " ") := by
  have hliteral : d.renderPiece (.standardLiteral " ") = d.quoteText " " := by cases d <;> rfl
  exact .same (hliteral ▸ d.complete_quoteText " ")

theorem symm {p q : Piece} (h : Twin d p q) : Twin d q p := by
  cases h with
  | same h => exact .same h
  | literal first second => exact .literal second first

theorem trans {p q r : Piece} (hpq : Twin d p q) (hqr : Twin d q r) : Twin d p r := by
  cases hpq with
  | same _ => exact hqr
  | literal first second =>
    cases hqr with
    | same _ => exact .literal first second
    | literal _ third => exact .literal first third

end Piece.Twin

namespace Twin

theorem nil : Twin d [] [] := List.Forall₂.nil

theorem cons {p q : Piece} {first second : Sql} (h : Piece.Twin d p q)
    (hrest : Twin d first second) : Twin d (p :: first) (q :: second) :=
  List.Forall₂.cons h hrest

theorem single {p q : Piece} (h : Piece.Twin d p q) : Twin d [p] [q] := cons h nil

theorem append {a b first second : Sql} (h : Twin d a b) (hrest : Twin d first second) :
    Twin d (a ++ first) (b ++ second) := List.rel_append h hrest

theorem symm {a b : Sql} (h : Twin d a b) : Twin d b a := by
  induction h with
  | nil => exact nil
  | cons hp _ ih => exact cons hp.symm ih

theorem trans {a b c : Sql} (hab : Twin d a b) (hbc : Twin d b c) : Twin d a c := by
  induction hab generalizing c with
  | nil => exact hbc
  | cons hp _ ih =>
    cases hbc with
    | cons hq hrest => exact cons (hp.trans hq) (ih hrest)

/-- Both statements are complete. -/
theorem complete {a b : Sql} (h : Twin d a b) : d.Complete (d.characters a) := by
  induction h with
  | nil => exact Dialect.Complete.nil d
  | cons hp _ ih =>
    cases hp with
    | same hp => exact hp.append ih
    | literal text _ => exact (d.complete_quoteText text).append ih

/-! What the pieces of names and lists are made of. -/

theorem intercalate {separator : Sql} (h : Twin d separator separator) {as bs : List Sql}
    (hparts : List.Forall₂ (Twin d) as bs) :
    Twin d (List.intercalate separator as) (List.intercalate separator bs) := by
  induction hparts with
  | nil => exact nil
  | cons hfirst hrest ih =>
    cases hrest with
    | nil => simpa [List.intercalate] using hfirst
    | cons =>
      simp only [List.intercalate, List.intersperse_cons_cons, List.flatten_cons] at ih ⊢
      exact hfirst.append (h.append ih)

theorem join {separator : String} (h : separator.toList.all isPlain = true) {as bs : List Sql}
    (hparts : List.Forall₂ (Twin d) as bs) :
    Twin d (Sql.join separator as) (Sql.join separator bs) :=
  intercalate (single (.word h)) hparts

theorem commaList {as bs : List Sql} (hparts : List.Forall₂ (Twin d) as bs) :
    Twin d (Sql.commaList as) (Sql.commaList bs) := join (by decide) hparts

theorem parenthesized {a b : Sql} (h : Twin d a b) :
    Twin d (Sql.parenthesized a) (Sql.parenthesized b) :=
  cons .word (h.append (single .word))

theorem identifier (name : String) : Twin d (Sql.identifier name) (Sql.identifier name) := by
  unfold Sql.identifier
  split
  · exact nil
  · exact single (.name name)

theorem qualifier (name : String) : Twin d (Sql.qualifier name) (Sql.qualifier name) := by
  unfold Sql.qualifier
  split
  · exact nil
  · exact cons (.name name) (single .word)

theorem path (name : String) : Twin d (Sql.path name) (Sql.path name) := by
  unfold Sql.path
  split
  · exact nil
  · refine intercalate (single .word) (List.forall₂_map_left_iff.2 ?_)
    exact List.forall₂_map_right_iff.2 (List.forall₂_same.2 fun part _ => single (.name part))

end Twin

end Sql

/-! ## Predicates -/

namespace Predicate

/-- Two tokens that are the same but for the texts in an expression. -/
inductive Token.Twin (d : Dialect) : Token → Token → Prop
  | atom {a b : Sql} (h : Sql.Twin d a b) : Twin d (.atom a) (.atom b)
  | conjunction : Twin d .conjunction .conjunction
  | disjunction : Twin d .disjunction .disjunction
  | negation : Twin d .negation .negation
  | openParen : Twin d .openParen .openParen
  | closeParen : Twin d .closeParen .closeParen

/-- Two predicates of the same structure that differ in the texts of their expressions alone. -/
def Twin (d : Dialect) : Predicate → Predicate → Prop := List.Forall₂ (Token.Twin d)

namespace Twin

variable {d : Dialect}

theorem ofAtom {a b : Sql} (h : Sql.Twin d a b) : Twin d (.ofAtom a) (.ofAtom b) :=
  .cons (.atom h) .nil

theorem isEmpty_eq {p q : Predicate} (h : Twin d p q) : p.isEmpty = q.isEmpty := by
  cases h <;> rfl

theorem toSql {p q : Predicate} (h : Twin d p q) : Sql.Twin d p.toSql q.toSql := by
  induction h with
  | nil => exact .nil
  | cons hfirst _ ih =>
    refine Sql.Twin.append ?_ ih
    cases hfirst with
    | atom h => exact h
    | conjunction | disjunction | negation | openParen | closeParen =>
      exact .single .word

theorem parenthesized {p q : Predicate} (h : Twin d p q) :
    Twin d (.parenthesized p) (.parenthesized q) :=
  .cons .openParen (List.rel_append h (.cons .closeParen .nil))

theorem negated {p q : Predicate} (h : Twin d p q) : Twin d (.negated p) (.negated q) :=
  .cons .negation h

theorem join (disjunctive : Bool) {ps qs : List Predicate} (h : List.Forall₂ (Twin d) ps qs) :
    Twin d (.join disjunctive ps) (.join disjunctive qs) := by
  have hseparator : Twin d [if disjunctive then Token.disjunction else Token.conjunction]
      [if disjunctive then Token.disjunction else Token.conjunction] := by
    cases disjunctive with
    | true => exact .cons .disjunction .nil
    | false => exact .cons .conjunction .nil
  induction h with
  | nil => exact .nil
  | cons hfirst hrest ih =>
    cases hrest with
    | nil => simpa [Predicate.join, List.intercalate] using hfirst
    | cons =>
      simp only [Predicate.join, List.intercalate, List.intersperse_cons_cons,
        List.flatten_cons] at ih ⊢
      exact List.rel_append hfirst (List.rel_append hseparator ih)

theorem joinGrouped (grouped disjunctive : Bool) {ps qs : List Predicate}
    (h : List.Forall₂ (Twin d) ps qs) :
    Twin d (.joinGrouped grouped disjunctive ps) (.joinGrouped grouped disjunctive qs) := by
  simp only [Predicate.joinGrouped, h.length_eq]
  split
  · exact (join disjunctive h).parenthesized
  · exact join disjunctive h

end Twin

end Predicate

end EntitySql
