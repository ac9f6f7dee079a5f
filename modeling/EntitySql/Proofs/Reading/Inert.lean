import EntitySql.Compile.Value
import EntitySql.Proofs.Lexing.Character
import EntitySql.Proofs.Lexing.Tokens
import EntitySql.Proofs.Reading.Text
/-!
# Inert texts

Names, literals and numbers have no keyword and no parenthesis in them: whatever stands between
quotes is one token. So they cannot change how the text around them is read.
-/

namespace EntitySql

open Lexeme Lexer

namespace Dialect

/-- A text whose tokens have no role in a condition. -/
structure IsInert (d : Dialect) (text : List Char) : Prop where
  settles : d.Settles text
  roles : ∀ t ∈ d.lexemes text, t.role = .other

/-- A gap of tokens without a role. -/
def isInertGap (d : Dialect) (gap : List Char) : Bool :=
  d.isGap gap && (d.lexemes gap).all (·.role == .other)

namespace IsInert

variable {d : Dialect} {first second text : List Char}

theorem nil : d.IsInert [] := ⟨rfl, by simp [lexemes, Mode.pending]⟩

theorem gap {gap : List Char} (hfirst : d.IsInert first) (hgap : d.isInertGap gap = true)
    (hsecond : d.IsInert second) : d.IsInert (first ++ (gap ++ second)) := by
  simp only [isInertGap, Bool.and_eq_true, List.all_eq_true, beq_iff_eq] at hgap
  refine ⟨settles_gap hfirst.settles hgap.1 hsecond.settles, fun t ht => ?_⟩
  rw [lexemes_gap hfirst.settles hgap.1] at ht
  rcases List.mem_append.1 ht with ht | ht
  · exact hfirst.roles t ht
  · exact (List.mem_append.1 ht).elim (hgap.2 t) (hsecond.roles t)

/-! ## Quotations and numbers -/

theorem quotation {q : Quotation} (hq : d.knows q = true) {body content : List Char}
    (hbody : ∀ read, d.scan (.inside q read) body = ([], .inside q (read ++ content))) :
    d.IsInert (d.markOf q :: body ++ [d.markOf q]) := by
  refine ⟨(Complete.of_quotation d hq hbody).settles, fun t ht => ?_⟩
  rw [d.lexemes_quotation hq hbody] at ht
  rw [List.mem_singleton.1 ht]
  cases q <;> rfl

theorem quoteName (name : String) : d.IsInert (d.quoteName name) :=
  quotation d.knows_name fun read =>
    d.scan_inside_doubled .name read name.toList (by simp [escapesIn])

theorem quoteText (s : String) : d.IsInert (d.quoteText s) := by
  rw [quoteText_eq]
  exact quotation d.knows_single fun read => d.scan_literalBody read s.toList

theorem quoteBytes (bytes : List UInt8) : d.IsInert (d.quoteBytes bytes) := by
  refine ⟨(d.complete_quoteBytes bytes).settles, fun t ht => ?_⟩
  obtain ⟨content, h | h⟩ := d.lexemes_quoteBytes bytes
  · rw [h] at ht
    rw [List.mem_singleton.1 ht]
    rfl
  · rw [h] at ht
    rcases List.mem_cons.1 ht with rfl | ht
    · rfl
    · rw [List.mem_singleton.1 ht]
      rfl

/-- Characters that numbers consist of are no letters. -/
theorem toUpper_of_isNumeral {c : Char} (h : (isNumeralChar c || c == '-') = true) :
    c.toUpper = c := by
  have hlow : c.val < 'a'.val := by
    simp only [isNumeralChar, Char.isDigit, Bool.or_eq_true, Bool.and_eq_true, decide_eq_true_eq,
      beq_iff_eq] at h
    rcases h with (⟨_, hdigit⟩ | rfl) | rfl
    · exact UInt32.lt_of_le_of_lt hdigit (by decide)
    · decide
    · decide
  exact dif_neg fun hc => absurd hc.1 (UInt32.not_le.2 hlow)

/-- A word of digits is no keyword, and neither a point nor a minus is a parenthesis. -/
theorem role_of_all {t : Lexeme} (h : t.All fun c => isNumeralChar c || c == '-') :
    t.role = .other := by
  cases t with
  | name | literal | unclosed => rfl
  | symbol c =>
    have hc : (isNumeralChar c || c == '-') = true := h
    have hopen : c ≠ '(' := by
      rintro rfl
      exact absurd hc (by decide)
    have hclose : c ≠ ')' := by
      rintro rfl
      exact absurd hc (by decide)
    simp [role, hopen, hclose]
  | word text =>
    have hupper : text.map Char.toUpper = text :=
      (List.map_congr_left fun c hc => toUpper_of_isNumeral (h c hc)).trans (List.map_id' text)
    have hletter {c : Char} (hc : (isNumeralChar c || c == '-') = false) : c ∉ text := by
      intro hmem
      simp [h c hmem] at hc
    rw [role, hupper]
    split
    · exact absurd (.head _) (hletter (c := 'A') (by decide))
    · exact absurd (.head _) (hletter (c := 'O') (by decide))
    · exact absurd (.head _) (hletter (c := 'N') (by decide))
    · rfl

/-- Numbers consist of digits, points and a minus. -/
theorem isNumeral_of_isSigned (h : IsSigned text) : ∀ c ∈ text, (isNumeralChar c || c == '-') = true := by
  rcases h with h | ⟨rest, rfl, h⟩
  · exact fun c hc => by simp [h.chars c hc]
  · intro c hc
    rcases List.mem_cons.1 hc with rfl | hc
    · decide
    · simp [h.chars c hc]

theorem of_isSigned (h : IsSigned text) : d.IsInert text :=
  ⟨(Complete.of_isSigned d h).settles, fun t ht => role_of_all (all_lexemes (isNumeral_of_isSigned h) t ht)⟩

/-! ## Names and lists -/

theorem name (identifier : String) : d.IsInert (d.characters [.name identifier]) := by
  simpa [renderPiece] using quoteName identifier

theorem identifier (name : String) : d.IsInert (d.characters (Sql.identifier name)) := by
  unfold Sql.identifier
  split
  · exact nil
  · exact .name name

theorem path (name : String) : d.IsInert (d.characters (Sql.path name)) := by
  unfold Sql.path
  split
  · exact nil
  · have hgap : d.isInertGap (d.characters [.word "."]) = true := by cases d <;> rfl
    refine intercalate_induction nil (fun _ _ hfirst hsecond => hfirst.gap hgap hsecond)
      fun sql hsql => ?_
    obtain ⟨part, _, rfl⟩ := List.mem_map.1 hsql
    exact .name part

theorem qualified (qualifier : String) {sql : Sql} (h : d.IsInert (d.characters sql)) :
    d.IsInert (d.characters (Sql.qualifier qualifier ++ sql)) := by
  unfold Sql.qualifier
  split
  · exact h
  · have hgap : d.isInertGap ".".toList = true := by cases d <;> rfl
    simpa [renderPiece] using (quoteName (d := d) qualifier).gap hgap h

theorem column (m : Member) (key : String) (qualifier? : Option String) :
    d.IsInert (d.characters (Compiler.column m key qualifier?)) :=
  qualified _ (identifier _)

end IsInert

end Dialect

end EntitySql
