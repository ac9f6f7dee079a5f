import EntitySql.Proofs.Lexing.Numeral
/-!
# Tokens of quoted texts

By itself a quoted name or a literal is one token, which holds what stands between the quotes, and a number has at
least one token.
-/

namespace EntitySql

open Lexer

namespace Dialect

variable (d : Dialect)

theorem lexemes_quotation {q : Quotation} (hq : d.knows q = true) {body content : List Char}
    (hbody : ∀ read, d.scan (.inside q read) body = ([], .inside q (read ++ content))) :
    d.lexemes (d.markOf q :: body ++ [d.markOf q]) = [q.lexeme content] := by
  have hscan := d.scan_quotation_of_ne hq (m := .blank) rfl (by simp) hbody
  rw [lexemes, hscan]
  rfl

theorem lexemes_quoteName (name : String) : d.lexemes (d.quoteName name) = [.name name.toList] :=
  d.lexemes_quotation d.knows_name fun read =>
    d.scan_inside_doubled .name read name.toList (by simp [escapesIn])

theorem lexemes_quoteText (text : String) : d.lexemes (d.quoteText text) = [.literal text.toList] := by
  rw [quoteText_eq]
  exact d.lexemes_quotation d.knows_single fun read => d.scan_literalBody read text.toList

/-- A binary literal is a literal, which may stand behind a word that introduces it. -/
theorem lexemes_quoteBytes (bytes : List UInt8) :
    ∃ content, d.lexemes (d.quoteBytes bytes) = [.literal content] ∨
      d.lexemes (d.quoteBytes bytes) = [.word ['X'], .literal content] := by
  obtain ⟨introducer, body, hintroducer, htext, hbody⟩ := d.quoteBytes_eq bytes
  rw [htext]
  rcases hintroducer with rfl | rfl
  · exact ⟨body, .inl (d.lexemes_quotation d.knows_single hbody)⟩
  · have hword : d.step .blank 'X' = ([], .word ['X']) := by cases d <;> rfl
    have hscan : d.scan (.word ['X']) ('\'' :: body ++ ['\'']) = ([.word ['X']], .closing .single body) :=
      d.scan_quotation_of_ne d.knows_single rfl (by simp) hbody
    refine ⟨body, .inr ?_⟩
    rw [lexemes, List.singleton_append, d.scan_cons_of_step hword, hscan]
    rfl

/-! ## Numbers -/

/-- A word that has begun is a token, whatever follows. -/
theorem scan_word_ne_nil (read text : List Char) :
    (d.scan (.word read) text).1 ++ (d.scan (.word read) text).2.pending ≠ [] := by
  induction text generalizing read with
  | nil => exact List.cons_ne_nil _ _
  | cons c rest ih =>
    by_cases hc : isWordChar c = true
    · have hstep : d.step (.word read) c = ([], .word (read ++ [c])) := if_pos hc
      rw [d.scan_cons_of_step hstep]
      exact ih _
    · have hstep : d.step (.word read) c = d.restart (.word read) c := if_neg hc
      rw [scan, hstep]
      exact List.cons_ne_nil _ _

/-- A character that opens nothing and is no blank begins a word or is a symbol. -/
theorem start_of_isPlain {c : Char} (hc : isPlain c = true) (hblank : isBlank c = false) :
    d.start c = ([], .word [c]) ∨ d.start c = ([.symbol c], .blank) := by
  have hne : c ≠ '\'' ∧ c ≠ '"' ∧ c ≠ '`' ∧ c ≠ '-' ∧ c ≠ '/' ∧ c ≠ '#' := by
    simpa [isPlain, not_or] using hc
  obtain ⟨hsingle, hdouble, htick, hdash, hslash, hhash⟩ := hne
  have hquote : d.quotation? c = none := by
    cases d <;> simp [quotation?, quoteChar, isMySqlLike, hsingle, hdouble, htick]
  by_cases hword : isWordChar c = true
  · exact .inl (by simp [start, hblank, hquote, hword])
  · exact .inr (by simp [start, hblank, hquote, hword, hdash, hslash, hhash])

theorem isBlank_of_isNumeralChar {c : Char} (h : isNumeralChar c = true) : isBlank c = false := by
  refine Bool.eq_false_iff.2 fun hblank => ?_
  simp only [isBlank, Char.isWhitespace, Bool.or_eq_true, decide_eq_true_eq, beq_iff_eq] at hblank
  rcases hblank with ((((rfl | rfl) | rfl) | rfl) | rfl) | rfl <;> exact absurd h (by decide)

theorem lexemes_ne_nil_of_isSigned {text : List Char} (h : IsSigned text) : d.lexemes text ≠ [] := by
  rcases h with h | ⟨rest, rfl, h⟩
  · obtain ⟨c, rest, rfl⟩ := List.exists_cons_of_ne_nil h.ne_nil
    have hc := h.chars c (.head _)
    have hstep : d.step .blank c = d.start c := rfl
    rcases d.start_of_isPlain (isPlain_of_isNumeralChar hc) (isBlank_of_isNumeralChar hc) with hstart | hstart
    · rw [lexemes, d.scan_cons_of_step (hstep.trans hstart)]
      exact d.scan_word_ne_nil _ _
    · rw [lexemes, scan, hstep, hstart]
      exact List.cons_ne_nil _ _
  · obtain ⟨c, rest, rfl⟩ := List.exists_cons_of_ne_nil h.ne_nil
    have hc := isPlain_of_isNumeralChar (h.chars c (.head _))
    have hne : c ≠ '-' := by
      rintro rfl
      cases hc
    have hminus : d.step .blank '-' = ([], .dash) := by cases d <;> rfl
    have hstep : d.step .dash c = d.restart .dash c := if_neg hne
    rw [lexemes, d.scan_cons_of_step hminus, scan, hstep]
    exact List.cons_ne_nil _ _

end Dialect

end EntitySql
