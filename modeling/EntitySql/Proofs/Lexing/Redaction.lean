import EntitySql.Proofs.Lexing.Quoting
import Mathlib.Data.List.Forall2
/-!
# Tokens without the contents of literals

`Lexeme.redacted` keeps of a literal only that there is one. Two statements whose pieces differ in
the contents of literals alone have the same redacted tokens: no content ends its literal, and none
reaches a token beside it.
-/

namespace EntitySql

open Lexer

/-- The token with nothing in it if it is a literal. -/
def Lexeme.redacted : Lexeme → Lexeme
  | .literal _ => .literal []
  | token => token

namespace Lexer

/-- What remains of the inside of a quotation. -/
def Quotation.redacted (q : Quotation) (content : List Char) : List Char :=
  if q = .name then content else []

@[simp]
theorem Quotation.redacted_lexeme (q : Quotation) (content : List Char) :
    (q.lexeme (q.redacted content)).redacted = (q.lexeme content).redacted := by
  cases q <;> rfl

/-- The mode of a lexer that forgets what is inside literals. -/
def Mode.redacted : Mode → Mode
  | .inside q read => .inside q (q.redacted read)
  | .escaped q read => .escaped q (q.redacted read)
  | .closing q read => .closing q (q.redacted read)
  | m => m

end Lexer

/-- What a lexer without the contents of literals completes and where it stands. -/
def Lexer.redacted (result : List Lexeme × Mode) : List Lexeme × Mode :=
  (result.1.map Lexeme.redacted, result.2.redacted)

namespace Dialect

variable (d : Dialect)

/-- A lexer that forgets the contents of literals goes the same way as one that does not. -/
theorem redacted_step (m : Mode) (c : Char) :
    redacted (d.step m.redacted c) = redacted (d.step m c) := by
  cases m with
  | inside q read =>
    simp only [step, Mode.redacted]
    repeat' split
    all_goals cases q <;> simp [redacted, Mode.redacted, Quotation.redacted]
  | escaped q read => cases q <;> simp [redacted, step, Mode.redacted, Quotation.redacted]
  | closing q read =>
    simp only [step, Mode.redacted]
    split
    · cases q <;> simp [redacted, Mode.redacted, Quotation.redacted]
    · simp [redacted, restart, Mode.pending]
  | blank | word | dash | dashes | slash | lineComment | blockComment => rfl

theorem redacted_scan (m : Mode) (text : List Char) :
    redacted (d.scan m.redacted text) = redacted (d.scan m text) := by
  induction text generalizing m with
  | nil => cases m with
    | inside q read | escaped q read | closing q read =>
      cases q <;> simp [redacted, Mode.redacted, Quotation.redacted]
    | blank | word | dash | dashes | slash | lineComment | blockComment => rfl
  | cons c rest ih =>
    have hstep := d.redacted_step m c
    have hmode : (d.step m.redacted c).2.redacted = (d.step m c).2.redacted :=
      congrArg Prod.snd hstep
    have hdone : (d.step m.redacted c).1.map Lexeme.redacted =
        (d.step m c).1.map Lexeme.redacted := congrArg Prod.fst hstep
    have hrest : redacted (d.scan (d.step m.redacted c).2 rest) =
        redacted (d.scan (d.step m c).2 rest) := by
      rw [← ih (d.step m.redacted c).2, hmode, ih]
    simp only [redacted, Prod.mk.injEq] at hrest
    simp only [redacted, scan, List.map_append, hdone, hrest.1, hrest.2]

/-- Two lexers that differ in the contents of literals alone read a text alike. -/
theorem redacted_scan_congr {first second : Mode} (h : first.redacted = second.redacted)
    (text : List Char) : redacted (d.scan first text) = redacted (d.scan second text) := by
  rw [← d.redacted_scan first, h, d.redacted_scan second]

theorem redacted_pending (m : Mode) :
    m.redacted.pending.map Lexeme.redacted = m.pending.map Lexeme.redacted := by
  cases m <;> simp [Mode.redacted, Mode.pending]

end Dialect

/-! ## Pieces that differ in literals -/

namespace Sql

/-- Two pieces that are the same and complete, or two literals. -/
inductive Piece.Twin (d : Dialect) : Piece → Piece → Prop
  | same {piece : Piece} (h : d.Complete (d.renderPiece piece)) : Twin d piece piece
  | literal (first second : String) : Twin d (.literal first) (.literal second)

/-- Two texts whose pieces differ in the contents of literals alone. -/
def Twin (d : Dialect) : Sql → Sql → Prop := List.Forall₂ (Piece.Twin d)

end Sql

namespace Dialect

variable (d : Dialect)

/-- Two literals in the same place complete the same tokens. -/
theorem redacted_scan_quoteText (first second : String) {m : Mode} (hm : d.isSettled m = true) :
    redacted (d.scan m (d.quoteText first)) = redacted (d.scan m (d.quoteText second)) := by
  obtain ⟨done, read, hscan⟩ := d.scan_quotation d.knows_single hm
  have hliteral (text : String) :
      d.scan m (d.quoteText text) = (done, .closing .single (read ++ text.toList)) := by
    rw [quoteText_eq]
    exact hscan _ _ fun read => d.scan_literalBody read text.toList
  rw [hliteral, hliteral]
  rfl

theorem redacted_scan_renderPiece {first second : Sql.Piece} (h : Sql.Piece.Twin d first second)
    {m : Mode} (hm : d.isSettled m = true) :
    redacted (d.scan m (d.renderPiece first)) = redacted (d.scan m (d.renderPiece second)) ∧
      d.isSettled (d.scan m (d.renderPiece first)).2 = true ∧
      d.isSettled (d.scan m (d.renderPiece second)).2 = true := by
  cases h with
  | same h => exact ⟨rfl, h m hm, h m hm⟩
  | literal s t =>
    exact ⟨d.redacted_scan_quoteText s t hm, d.complete_quoteText s m hm,
      d.complete_quoteText t m hm⟩

/-- The induction over the pieces: the two lexers stay at the ends of tokens and differ in the
contents of literals alone. -/
theorem redacted_scan_characters {first second : Sql} (h : Sql.Twin d first second) {m n : Mode}
    (hm : d.isSettled m = true) (hn : d.isSettled n = true) (hmn : m.redacted = n.redacted) :
    redacted (d.scan m (d.characters first)) = redacted (d.scan n (d.characters second)) := by
  induction h generalizing m n with
  | nil => simp [redacted, hmn]
  | @cons p q _ _ hpq _ ih =>
    obtain ⟨hsame, hsettled, _⟩ := d.redacted_scan_renderPiece hpq hm
    have hpieces : redacted (d.scan m (d.renderPiece p)) = redacted (d.scan n (d.renderPiece q)) :=
      hsame.trans (d.redacted_scan_congr hmn _)
    simp only [redacted, Prod.mk.injEq] at hpieces
    have hrest := ih hsettled (d.redacted_scan_renderPiece hpq hn).2.2 hpieces.2
    simp only [redacted, Prod.mk.injEq] at hrest
    simp [redacted, scan_append, hpieces.1, hrest.1, hrest.2]

/-- Statements that differ in the contents of literals alone have the same tokens but for these
contents. -/
theorem redacted_lexemes {first second : Sql} (h : Sql.Twin d first second) :
    (d.lexemes (d.characters first)).map Lexeme.redacted =
      (d.lexemes (d.characters second)).map Lexeme.redacted := by
  have hscan := d.redacted_scan_characters h (m := .blank) (n := .blank) rfl rfl rfl
  simp only [redacted, Prod.mk.injEq] at hscan
  simp only [lexemes, List.map_append, hscan.1]
  rw [← redacted_pending, hscan.2, redacted_pending]

end Dialect

end EntitySql
