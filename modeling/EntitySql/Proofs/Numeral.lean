import EntitySql.Text.Numeral
/-!
# Digits and numbers

The digits of a number are read back as that number, in decimal and in hexadecimal.
-/

namespace EntitySql.Text

/-! ## Decimal digits -/

theorem isDigit_of_mem_toDigits {n : Nat} {c : Char} (h : c ∈ Nat.toDigits 10 n) : isDigit c = true := by
  have hdigit : c.isDigit = true := Nat.isDigit_of_mem_toDigits (by decide) (by decide) h
  simpa [isDigit, Char.isDigit, Char.le_def] using hdigit

theorem natOfDigits_eq (cs : List Char) : natOfDigits cs = Nat.ofDigitChars 10 cs 0 := by
  simp only [natOfDigits, Nat.ofDigitChars, digitValue, Nat.mul_comm]

theorem natOfDigits_toDigits (n : Nat) : natOfDigits (Nat.toDigits 10 n) = n := by
  rw [natOfDigits_eq, Nat.ofDigitChars_toDigits (by decide) (by decide)]

/-- The text of a whole number is its digits behind a minus or none. -/
theorem toList_toString (n : Int) :
    (toString n).toList = if n < 0 then '-' :: Nat.toDigits 10 n.natAbs else Nat.toDigits 10 n.natAbs := by
  cases n with
  | ofNat m =>
    rw [if_neg (Int.not_lt.2 (Int.natCast_nonneg m) : ¬Int.ofNat m < 0)]
    exact Nat.toList_repr
  | negSucc m =>
    rw [if_pos (Int.negSucc_lt_zero m), show toString (Int.negSucc m) = "-" ++ (m + 1).repr from rfl,
      String.toList_append, Nat.toList_repr]
    rfl

theorem toDigits_inj {m n : Nat} (h : Nat.toDigits 10 m = Nat.toDigits 10 n) : m = n := by
  rw [← natOfDigits_toDigits m, h, natOfDigits_toDigits]

theorem toString_inj {a b : Int} (h : (toString a).toList = (toString b).toList) : a = b := by
  have hminus : ∀ n rest, Nat.toDigits 10 n ≠ '-' :: rest := fun n rest heq =>
    absurd (isDigit_of_mem_toDigits (heq ▸ List.mem_cons_self)) (by decide)
  rw [toList_toString, toList_toString] at h
  split at h <;> split at h
  · have hdigits := toDigits_inj (List.cons.inj h).2
    omega
  · exact absurd h.symm (hminus _ _)
  · exact absurd h (hminus _ _)
  · have hdigits := toDigits_inj h
    omega

/-- Only the digits of zero start with a zero. -/
theorem head?_toDigits_ne {n : Nat} (h : 0 < n) : (Nat.toDigits 10 n).head? ≠ some '0' := by
  induction n using Nat.strongRecOn with
  | ind n ih =>
    rw [Nat.toDigits_eq_if (by decide)]
    split
    · rename_i hlt
      have hdigit : ∀ k < 10, 0 < k → k.digitChar ≠ '0' := by decide
      simpa using hdigit n hlt h
    · have hfirst := ih (n / 10) (by omega) (by omega)
      obtain ⟨c, rest, hdigits⟩ := List.exists_cons_of_ne_nil (Nat.toDigits_ne_nil (n := n / 10) (b := 10))
      rw [hdigits] at hfirst ⊢
      exact hfirst

/-- What follows a run of digits is told apart from it. -/
theorem takeWhile_digits_append {digits rest : List Char} (hdigits : ∀ c ∈ digits, isDigit c = true)
    (hrest : ∀ c ∈ rest.head?, isDigit c = false) :
    (digits ++ rest).takeWhile isDigit = digits ∧ (digits ++ rest).dropWhile isDigit = rest := by
  rw [List.takeWhile_append_of_pos hdigits, List.dropWhile_append_of_pos hdigits]
  cases rest with
  | nil => exact ⟨List.append_nil _, rfl⟩
  | cons c rest =>
    have hc := hrest c rfl
    simp [hc]

theorem takeWhile_toDigits_append (n : Nat) {rest : List Char} (hrest : ∀ c ∈ rest.head?, isDigit c = false) :
    (Nat.toDigits 10 n ++ rest).takeWhile isDigit = Nat.toDigits 10 n ∧
      (Nat.toDigits 10 n ++ rest).dropWhile isDigit = rest :=
  takeWhile_digits_append (fun _ => isDigit_of_mem_toDigits) hrest

/-! ## Hexadecimal digits -/

theorem hexValue?_hexDigitLower : ∀ n < 16, hexValue? (hexDigitLower n) = some n := by decide

end EntitySql.Text
