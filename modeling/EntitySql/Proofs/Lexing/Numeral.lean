import EntitySql.Decimal.Shortest
import EntitySql.Proofs.Numeral
import EntitySql.Proofs.Lexing.Quoting
/-!
# Numbers and bytes are complete

Numerals consist of digits behind a sign, and a binary literal holds hexadecimal digits between its
quotes. None of them leaves a quotation or a comment open.
-/

namespace EntitySql

open Lexer

namespace Lexer

/-- Whether the character belongs to a number without a sign. -/
def isNumeralChar (c : Char) : Bool := c.isDigit || c == '.'

/-- A number without a sign. -/
structure IsNumeral (text : List Char) : Prop where
  ne_nil : text ≠ []
  chars : ∀ c ∈ text, isNumeralChar c = true

theorem isPlain_of_isNumeralChar {c : Char} (h : isNumeralChar c = true) : isPlain c = true := by
  have hnone : ∀ x ∈ ['\'', '"', '`', '-', '/', '#'], isNumeralChar x = false := by
    simp [isNumeralChar]
  cases hplain : isPlain c with
  | true => rfl
  | false =>
    rw [isPlain, Bool.not_eq_false'] at hplain
    rw [hnone c (List.contains_iff_mem.1 hplain)] at h
    cases h

theorem isNumeral_toDigits (n : Nat) : IsNumeral (Nat.toDigits 10 n) where
  ne_nil := Nat.toDigits_ne_nil
  chars c hc := by
    have hdigit : c.isDigit = true := Nat.isDigit_of_mem_toDigits (by decide) (by decide) hc
    simp [isNumeralChar, hdigit]

theorem isNumeralChar_of_mem_zeros {n : Nat} {c : Char} (h : c ∈ Decimal.zeros n) :
    isNumeralChar c = true := by
  rw [List.eq_of_mem_replicate h]
  decide

/-- A decimal without an exponent consists of digits and at most one point. -/
theorem isNumeral_positional (d : Decimal) : IsNumeral d.positional := by
  have hdigits := isNumeral_toDigits d.digits
  unfold Decimal.positional
  split
  · split
    · exact hdigits
    · refine ⟨by simp [hdigits.ne_nil], fun c hc => ?_⟩
      exact (List.mem_append.1 hc).elim (hdigits.chars c) isNumeralChar_of_mem_zeros
  · simp only
    split
    · refine ⟨by simp, fun c hc => ?_⟩
      rcases List.mem_append.1 hc with hwhole | hpart
      · exact hdigits.chars c (List.mem_of_mem_take hwhole)
      · rcases List.mem_cons.1 hpart with rfl | hdigit
        · decide
        · exact hdigits.chars c (List.mem_of_mem_drop hdigit)
    · refine ⟨by simp, fun c hc => ?_⟩
      rcases List.mem_cons.1 hc with rfl | hc
      · decide
      rcases List.mem_cons.1 hc with rfl | hc
      · decide
      exact (List.mem_append.1 hc).elim isNumeralChar_of_mem_zeros (hdigits.chars c)

/-- A number with or without a minus. -/
def IsSigned (text : List Char) : Prop :=
  IsNumeral text ∨ ∃ rest, text = '-' :: rest ∧ IsNumeral rest

theorem IsSigned.chars {text : List Char} (h : IsSigned text) :
    ∀ c ∈ text, isNumeralChar c = true ∨ c = '-' := by
  rcases h with h | ⟨rest, rfl, h⟩
  · exact fun c hc => .inl (h.chars c hc)
  · exact List.forall_mem_cons.2 ⟨.inr rfl, fun c hc => .inl (h.chars c hc)⟩

theorem isSigned_nat (n : Nat) : IsSigned (toString n).toList :=
  .inl ((Nat.toList_repr : (toString n).toList = _) ▸ isNumeral_toDigits n)

theorem isSigned_int (n : Int) : IsSigned (toString n).toList := by
  rw [Text.toList_toString]
  split
  · exact .inr ⟨_, rfl, isNumeral_toDigits _⟩
  · exact .inl (isNumeral_toDigits _)

theorem isSigned_toText {x : Binary64} (h : x.isFinite = true) : IsSigned x.toText.toList := by
  have hnan : x.isNaN = false := by
    simp only [Binary64.isFinite, Binary64.isNaN, decide_eq_true_eq, decide_eq_false_iff_not] at h ⊢
    omega
  have hnumeral := isNumeral_positional (Decimal.shortest .up x)
  simp only [Binary64.toText, hnan, h, Binary64.signed, String.toList_ofList, if_true,
    Bool.false_eq_true, if_false]
  split
  · exact .inr ⟨_, rfl, hnumeral⟩
  · exact .inl hnumeral

end Lexer

namespace Dialect

variable (d : Dialect)

theorem Complete.of_isSigned {text : List Char} (h : IsSigned text) : d.Complete text := by
  rcases h with h | ⟨rest, rfl, h⟩
  · exact Complete.of_isPlain d
      (List.all_eq_true.2 fun c hc => isPlain_of_isNumeralChar (h.chars c hc))
  · cases rest with
    | nil => exact absurd rfl h.ne_nil
    | cons c rest =>
      exact Complete.of_minus d (isPlain_of_isNumeralChar (h.chars c (.head rest)))
        (List.all_eq_true.2 fun x hx => isPlain_of_isNumeralChar (h.chars x (.tail c hx)))

/-! ## Binary literals -/

theorem isAlphanum_hexDigitUpper : ∀ n < 16, (Text.hexDigitUpper n).isAlphanum = true := by
  decide

theorem isAlphanum_of_mem_hexOfBytes {bytes : List UInt8} {c : Char}
    (hc : c ∈ (Text.hexOfBytes bytes).toList) : c.isAlphanum = true := by
  rw [Text.hexOfBytes, String.toList_ofList, List.mem_flatMap] at hc
  obtain ⟨b, _, hc⟩ := hc
  have hbyte : b.toNat < 256 := b.toNat_lt
  rcases List.mem_cons.1 hc with rfl | hc
  · exact isAlphanum_hexDigitUpper _ (by omega)
  · rw [List.mem_singleton.1 hc]
    exact isAlphanum_hexDigitUpper _ (by omega)

theorem doubled_of_notMem {c : Char} {text : List Char} (h : c ∉ text) :
    doubled c text = text := by
  induction text with
  | nil => rfl
  | cons x rest ih =>
    rw [List.mem_cons, not_or] at h
    rw [doubled_cons_of_ne (Ne.symm h.1), ih h.2]

/-- Between single quotes, text without a quote is read as it stands if no backslash escapes or
there is none. -/
theorem scan_inside_single {text : List Char} (hquote : '\'' ∉ text)
    (hback : '\\' ∉ text ∨ d.isMySqlLike = false) (read : List Char) :
    d.scan (.inside .single read) text = ([], .inside .single (read ++ text)) := by
  have hread := d.scan_inside_doubled .single read text (by
    rintro c hc ⟨rfl, hescapes⟩
    rcases hback with hnone | hd
    · exact hnone hc
    · simp [escapesIn, hd] at hescapes)
  rwa [markOf, doubled_of_notMem hquote] at hread

/-- A binary literal: an introducing word where there is one, and what stands between the quotes. -/
theorem quoteBytes_eq (bytes : List UInt8) :
    ∃ introducer body, (introducer = [] ∨ introducer = ['X']) ∧
      d.quoteBytes bytes = introducer ++ ('\'' :: body ++ ['\'']) ∧
      ∀ read, d.scan (.inside .single read) body = ([], .inside .single (read ++ body)) := by
  have hnone {c : Char} (hc : c.isAlphanum = false) : c ∉ (Text.hexOfBytes bytes).toList := by
    intro h
    simp [isAlphanum_of_mem_hexOfBytes h] at hc
  have hdigits := d.scan_inside_single (hnone (by decide)) (.inl (hnone (by decide)))
  cases d with
  | postgres =>
    have hquote : '\'' ∉ '\\' :: 'x' :: (Text.hexOfBytes bytes).toList := by
      simp [hnone]
    exact ⟨[], _, .inl rfl, rfl, scan_inside_single .postgres hquote (.inr rfl)⟩
  | mysql | mariadb | sqlite => exact ⟨['X'], _, .inr rfl, rfl, hdigits⟩

theorem complete_quoteBytes (bytes : List UInt8) : d.Complete (d.quoteBytes bytes) := by
  obtain ⟨introducer, body, hintroducer, htext, hbody⟩ := d.quoteBytes_eq bytes
  have hword : d.Complete introducer := by
    rcases hintroducer with rfl | rfl
    · exact Complete.nil d
    · exact Complete.of_isPlain d (by decide)
  rw [htext]
  exact hword.append (Complete.of_quotation d d.knows_single hbody)

end Dialect

end EntitySql
