import EntitySql.Decimal.Reading
import EntitySql.Decimal.Shortest
import EntitySql.Proofs.Decimal.Rounding
import EntitySql.Proofs.Numeral
/-!
# Numbers read back from their texts

The text of a 64-bit number is read back as that number (`Binary64.ofText?_toText`), so different numbers
have different texts. The shortest digits are chosen among those that read back, and neither the zeros
that are stripped from them nor the place of the point change what is read.
-/

namespace EntitySql

namespace Text

theorem natOfDigits_append_zeros (cs : List Char) (k : Nat) :
    natOfDigits (cs ++ List.replicate k '0') = natOfDigits cs * 10 ^ k := by
  rw [natOfDigits_eq, natOfDigits_eq, Nat.ofDigitChars_append, Nat.ofDigitChars_replicate_zero,
    Nat.mul_comm]

theorem natOfDigits_zeros_append (k : Nat) (cs : List Char) :
    natOfDigits (List.replicate k '0' ++ cs) = natOfDigits cs := by
  rw [natOfDigits_eq, natOfDigits_eq, Nat.ofDigitChars_append, Nat.ofDigitChars_replicate_zero,
    Nat.mul_zero]

end Text

namespace Binary64

/-! ## Decimals of the same value -/

section Values

variable {digits : Nat} {exponent : Int}

theorem decimalLength_le_iff {n k : Nat} (hk : 0 < k) : decimalLength n ≤ k ↔ n < 10 ^ k :=
  Nat.length_toDigits_le_iff (by decide) hk

theorem decimalLength_mul_ten {n : Nat} (h : 0 < n) : decimalLength (10 * n) = decimalLength n + 1 := by
  have hdigits := Nat.toDigits_append_toDigits (b := 10) (d := 0) (by decide) h (by decide)
  rw [Nat.add_zero] at hdigits
  rw [decimalLength, ← hdigits, List.length_append]
  rfl

/-- The point of a decimal stands behind the power of ten of its first digit. -/
theorem pow_le_of_decimal (h : 0 < digits) (exponent : Int) :
    (10 : ℚ) ^ (exponent + decimalLength digits - 1) ≤ digits * 10 ^ exponent ∧
      digits * 10 ^ exponent < (10 : ℚ) ^ (exponent + decimalLength digits) := by
  have hpower : (0 : ℚ) < 10 ^ exponent := by positivity
  obtain ⟨k, hk⟩ : ∃ k, decimalLength digits = k + 1 :=
    Nat.exists_eq_succ_of_ne_zero Nat.length_toDigits_pos.ne'
  have hlow : 10 ^ k ≤ digits := by
    rcases Nat.eq_zero_or_pos k with rfl | hpos
    · exact h
    · exact not_lt.1 fun hlt => absurd ((decimalLength_le_iff hpos).2 hlt) (by omega)
  have hhigh : digits < 10 ^ (k + 1) := (decimalLength_le_iff k.succ_pos).1 hk.le
  rw [hk, zpow_add₀ (by norm_num), mul_comm, show exponent + ((k + 1 : Nat) : Int) - 1 = exponent + k by omega,
    zpow_add₀ (by norm_num), mul_le_mul_iff_right₀ hpower, mul_lt_mul_iff_right₀ hpower, zpow_natCast,
    zpow_natCast]
  exact ⟨by exact_mod_cast hlow, by exact_mod_cast hhigh⟩

/-- A decimal that is neither too great nor too small is rounded from its value. -/
theorem exists_ofDecimal_eq_ofRatio (hpos : 0 < digits) (hlow : -330 ≤ exponent + decimalLength digits)
    (hhigh : exponent + decimalLength digits ≤ 310) :
    ∃ num den : Nat, 0 < den ∧ (num : ℚ) / den = digits * 10 ^ exponent ∧
      ∀ negative, ofDecimal negative digits exponent = ofRatio negative num den := by
  have hguards : ¬310 < exponent + decimalLength digits ∧ ¬exponent + decimalLength digits < -330 :=
    ⟨not_lt.2 hhigh, not_lt.2 hlow⟩
  cases exponent with
  | ofNat k =>
    refine ⟨digits * Nat.pow 10 k, 1, Nat.one_pos, by simp, fun negative => ?_⟩
    simp only [ofDecimal, hpos.ne', hguards.1, hguards.2, if_false]
  | negSucc k =>
    refine ⟨digits, Nat.pow 10 (k + 1), Nat.pow_pos (by decide), by simp [div_eq_mul_inv], fun negative => ?_⟩
    simp only [ofDecimal, hpos.ne', hguards.1, hguards.2, if_false]

theorem ofDecimal_eq_withSign (negative : Bool) (digits : Nat) (exponent : Int) :
    ofDecimal negative digits exponent = withSign negative (ofDecimal false digits exponent) := by
  unfold ofDecimal
  dsimp only
  split_ifs
  · rfl
  · rfl
  · rfl
  · split <;> exact ofRatio_eq_withSign _ _ _

theorem ofDecimal_mul_ten (negative : Bool) (digits : Nat) (exponent : Int) :
    ofDecimal negative (10 * digits) exponent = ofDecimal negative digits (exponent + 1) := by
  rcases Nat.eq_zero_or_pos digits with rfl | hpos
  · simp [ofDecimal]
  have hpos' : 0 < 10 * digits := by omega
  have hpoint : exponent + decimalLength (10 * digits) = exponent + 1 + decimalLength digits := by
    rw [decimalLength_mul_ten hpos]
    omega
  by_cases hhigh : 310 < exponent + 1 + (decimalLength digits : Int)
  · simp only [ofDecimal, hpos.ne', hpos'.ne', hpoint, hhigh, if_true, if_false]
  by_cases hlow : exponent + 1 + (decimalLength digits : Int) < -330
  · simp only [ofDecimal, hpos.ne', hpos'.ne', hpoint, hhigh, hlow, if_true, if_false]
  rw [not_lt] at hhigh hlow
  obtain ⟨num, den, hden, hvalue, heq⟩ := exists_ofDecimal_eq_ofRatio hpos hlow hhigh
  obtain ⟨num', den', hden', hvalue', heq'⟩ :=
    exists_ofDecimal_eq_ofRatio hpos' (hpoint ▸ hlow) (hpoint ▸ hhigh)
  rw [heq, heq']
  refine ofRatio_congr hden' hden ?_ negative
  rw [hvalue, hvalue', zpow_add_one₀ (by norm_num)]
  push_cast
  ring

theorem ofDecimal_mul_pow (negative : Bool) (digits k : Nat) (exponent : Int) :
    ofDecimal negative (digits * 10 ^ k) exponent = ofDecimal negative digits (exponent + k) := by
  induction k generalizing exponent with
  | zero => simp
  | succ k ih =>
    rw [pow_succ', Nat.mul_left_comm, ofDecimal_mul_ten, ih]
    congr 1
    omega

theorem value_lt {x : Binary64} (hx : x.isFinite = true) : x.value < 2 ^ (1024 : Int) := by
  have hfinite : x.magnitude.val < infinityPlace := of_decide_eq_true hx
  have hexponent : x.exponent ≤ 971 := by
    rw [infinityPlace_eq, ← Nat.div_lt_iff_lt_mul (by decide)] at hfinite
    unfold exponent
    split <;> omega
  have hsignificand : (x.significand : ℚ) < 2 ^ 53 := by exact_mod_cast x.significand_lt
  calc x.value ≤ x.significand * 2 ^ (971 : Int) :=
        mul_le_mul_of_nonneg_left (zpow_le_zpow_right₀ (by norm_num) hexponent) (by positivity)
    _ < 2 ^ 53 * 2 ^ (971 : Int) := mul_lt_mul_of_pos_right hsignificand (by positivity)
    _ = 2 ^ (1024 : Int) := by
      rw [← zpow_natCast, ← zpow_add₀ (by norm_num)]
      rfl

theorem le_value_of_pos {x : Binary64} (h : 0 < x.significand) : 2 ^ (-1074 : Int) ≤ x.value := by
  have hsignificand : (1 : ℚ) ≤ x.significand := by exact_mod_cast h
  calc (2 : ℚ) ^ (-1074 : Int) ≤ 2 ^ x.exponent := zpow_le_zpow_right₀ (by norm_num) x.neg_le_exponent
    _ ≤ x.value := le_mul_of_one_le_left (by positivity) hsignificand

/-- No finite number lies beyond the decimals that are rounded. -/
theorem pow_bounds :
    (10 : ℚ) ^ (-331 : Int) < 2 ^ (-1074 : Int) ∧ (2 : ℚ) ^ (1024 : Int) < 10 ^ (310 : Int) := by
  have hsmall : 2 ^ 1074 < 10 ^ 331 := by decide +kernel
  have hgreat : 2 ^ 1024 < 10 ^ 310 := by decide +kernel
  refine ⟨?_, by exact_mod_cast hgreat⟩
  rw [zpow_neg, zpow_neg]
  exact inv_strictAnti₀ (by positivity) (by exact_mod_cast hsmall)

/-- A finite number is found from a decimal with its exact value. -/
theorem ofDecimal_of_value {x : Binary64} (hx : x.isFinite = true)
    (h : digits * (10 : ℚ) ^ exponent = x.value) : ofDecimal x.negative digits exponent = x := by
  rcases Nat.eq_zero_or_pos digits with rfl | hpos
  · have hzero : x.significand = 0 := by
      rw [Nat.cast_zero, zero_mul] at h
      exact Nat.eq_zero_of_not_pos fun hpos => (value_pos hpos).ne h
    exact (eq_zero_of_significand hzero).symm
  · obtain ⟨hle, hlt⟩ := pow_le_of_decimal hpos exponent
    rw [h] at hle hlt
    have hsignificand : 0 < x.significand := by
      refine Nat.pos_of_ne_zero fun hzero => ?_
      rw [value, hzero, Nat.cast_zero, zero_mul] at hle
      exact absurd hle (not_le.2 (by positivity))
    have hlow : -330 ≤ exponent + decimalLength digits := by
      have hpower := pow_bounds.1.trans ((le_value_of_pos hsignificand).trans_lt hlt)
      have hpoint := (zpow_lt_zpow_iff_right₀ (by norm_num)).1 hpower
      omega
    have hhigh : exponent + decimalLength digits ≤ 310 := by
      have hpower := hle.trans_lt ((value_lt hx).trans pow_bounds.2)
      have hpoint := (zpow_lt_zpow_iff_right₀ (by norm_num)).1 hpower
      omega
    obtain ⟨num, den, hden, hvalue, heq⟩ := exists_ofDecimal_eq_ofRatio hpos hlow hhigh
    rw [heq]
    exact ofRatio_of_value hx hden (hvalue.trans h)

end Values

/-! ## Shortest digits -/

section Shortest

theorem ofDecimal_stripZeros (negative : Bool) (fuel digits : Nat) (exponent : Int) :
    ofDecimal negative (Decimal.stripZeros fuel digits exponent).digits
        (Decimal.stripZeros fuel digits exponent).exponent =
      ofDecimal negative digits exponent := by
  induction fuel generalizing digits exponent with
  | zero => rfl
  | succ fuel ih =>
    unfold Decimal.stripZeros
    split
    · rename_i hzero
      rw [ih, ← ofDecimal_mul_ten, Nat.mul_div_cancel' (Nat.dvd_of_mod_eq_zero hzero.2)]
    · rfl

/-- Digits are accepted only if they read back. -/
theorem magnitude_of_withDigits? {tie : Tie} {x : Binary64} {count : Nat} {d : Decimal}
    (h : Decimal.withDigits? tie x count = some d) :
    (ofDecimal false d.digits d.exponent).magnitude = x.magnitude := by
  unfold Decimal.withDigits? at h
  obtain ⟨digits, hfind, hd⟩ := Option.map_eq_some_iff.1 h
  have haccepts := List.find?_some hfind
  rw [← hd]
  exact eq_of_beq haccepts

theorem value_exact (x : Binary64) :
    (Decimal.exact x).digits * (10 : ℚ) ^ (Decimal.exact x).exponent = x.value := by
  unfold Decimal.exact value
  split
  · rename_i k hk
    rw [hk]
    simp
  · rename_i k hk
    have hten : (10 : ℚ) ^ (k + 1) = 5 ^ (k + 1) * 2 ^ (k + 1) := by rw [← mul_pow]; norm_num
    rw [hk, zpow_negSucc, show -((k : Int) + 1) = Int.negSucc k from (Int.negSucc_eq k).symm,
      zpow_negSucc, hten, Nat.pow_eq]
    push_cast
    field_simp

/-- The shortest digits read back as the number. -/
theorem ofDecimal_shortest (tie : Tie) {x : Binary64} (hx : x.isFinite = true) :
    ofDecimal x.negative (Decimal.shortest tie x).digits (Decimal.shortest tie x).exponent = x := by
  unfold Decimal.shortest
  split
  · rename_i hzero
    exact congrArg (Binary64.mk x.negative) (Fin.ext hzero).symm
  · split
    · rename_i d hd
      obtain ⟨count, _, hcount⟩ := List.exists_of_findSome?_eq_some hd
      rw [ofDecimal_stripZeros, ofDecimal_eq_withSign, withSign, magnitude_of_withDigits? hcount]
    · exact ofDecimal_of_value hx (value_exact x)

end Shortest

/-! ## Reading a text -/

section Reading

theorem takeSign_of_isDigit {cs : List Char} (h : ∀ c ∈ cs.head?, Text.isDigit c = true) :
    takeSign cs = (false, cs) := by
  have hnone : ∀ sign ∈ ['-', '+'], Text.isDigit sign = false :=
    List.forall_mem_cons.2 ⟨by decide, List.forall_mem_singleton.2 (by decide)⟩
  have hsign : ∀ sign ∈ ['-', '+'], cs.head? ≠ some sign := fun sign hsign hhead =>
    Bool.false_ne_true ((hnone sign hsign).symm.trans (h sign hhead))
  unfold takeSign
  split
  · exact absurd rfl (hsign '-' (by simp))
  · exact absurd rfl (hsign '+' (by simp))
  · rfl

/-- Digits and what follows them are read behind their sign. -/
theorem ofText?_signed (negative : Bool) {whole tail fraction : List Char} (hne : whole ≠ [])
    (hwhole : ∀ c ∈ whole, Text.isDigit c = true) (htail : ∀ c ∈ tail.head?, Text.isDigit c = false)
    (hfraction : takeFraction tail = (fraction, [])) :
    ofText? (String.ofList (if negative then '-' :: (whole ++ tail) else whole ++ tail)) =
      some (ofDecimal negative (Text.natOfDigits (whole ++ fraction)) (0 - fraction.length)) := by
  have hhead : ∀ c ∈ (whole ++ tail).head?, Text.isDigit c = true := fun c hc => by
    rw [List.head?_append_of_ne_nil _ hne] at hc
    exact hwhole c (List.mem_of_mem_head? hc)
  have hsign : takeSign (if negative then '-' :: (whole ++ tail) else whole ++ tail) =
      (negative, whole ++ tail) := by
    cases negative with
    | true => rfl
    | false => exact takeSign_of_isDigit hhead
  obtain ⟨hfront, hback⟩ := Text.takeWhile_digits_append hwhole htail
  have hempty : whole.isEmpty = false := by simpa using hne
  simp only [ofText?, String.toList_ofList, hsign, hfront, hback, hfraction, hempty, Bool.false_and,
    Bool.false_eq_true, if_false, readExponent?, Option.map_some]

theorem ofText?_whole (negative : Bool) {whole : List Char} (hne : whole ≠ [])
    (hwhole : ∀ c ∈ whole, Text.isDigit c = true) :
    ofText? (String.ofList (if negative then '-' :: whole else whole)) =
      some (ofDecimal negative (Text.natOfDigits whole) 0) := by
  have hnone : ∀ c ∈ ([] : List Char).head?, Text.isDigit c = false := by simp
  have hread := ofText?_signed negative hne hwhole hnone rfl
  rw [List.append_nil] at hread
  exact hread

theorem ofText?_fraction (negative : Bool) {whole fraction : List Char} (hne : whole ≠ [])
    (hwhole : ∀ c ∈ whole, Text.isDigit c = true) (hfraction : ∀ c ∈ fraction, Text.isDigit c = true) :
    ofText? (String.ofList (if negative then '-' :: (whole ++ '.' :: fraction) else whole ++ '.' :: fraction)) =
      some (ofDecimal negative (Text.natOfDigits (whole ++ fraction)) (-fraction.length)) := by
  have hnone : ∀ c ∈ ([] : List Char).head?, Text.isDigit c = false := by simp
  have htake := Text.takeWhile_digits_append hfraction hnone
  rw [List.append_nil] at htake
  have hpoint : ∀ c ∈ ('.' :: fraction).head?, Text.isDigit c = false := by
    rintro c ⟨⟩
    decide
  rw [ofText?_signed negative hne hwhole hpoint (Prod.ext htake.1 htake.2), Int.zero_sub]

/-- The text of a whole number is read as that number. -/
theorem ofText?_toString (n : Int) : ofText? (toString n) = some (ofDecimal (n < 0) n.natAbs 0) := by
  have hread (negative : Bool) := ofText?_whole negative Nat.toDigits_ne_nil
    fun c => Text.isDigit_of_mem_toDigits (n := n.natAbs) (c := c)
  simp only [Text.natOfDigits_toDigits] at hread
  rw [← String.ofList_toList (s := toString n), Text.toList_toString, ← hread]
  simp

/-- The place of the point decides about the power of ten. -/
theorem ofText?_positional (negative : Bool) (d : Decimal) :
    ofText? (String.ofList (if negative then '-' :: d.positional else d.positional)) =
      some (ofDecimal negative d.digits d.exponent) := by
  obtain ⟨digits, exponent⟩ := d
  have hdigits : ∀ c ∈ Nat.toDigits 10 digits, Text.isDigit c = true :=
    fun _ => Text.isDigit_of_mem_toDigits
  have hzeros (k : Nat) : ∀ c ∈ List.replicate k '0', Text.isDigit c = true :=
    List.forall_mem_replicate.2 (.inr (by decide))
  have hvalue := Text.natOfDigits_toDigits digits
  cases exponent with
  | ofNat k =>
    by_cases hzero : digits = 0
    · have htext : Decimal.positional ⟨digits, .ofNat k⟩ = Nat.toDigits 10 digits := if_pos hzero
      rw [htext, ofText?_whole negative Nat.toDigits_ne_nil hdigits, hvalue, hzero]
      simp [ofDecimal]
    · have htext : Decimal.positional ⟨digits, .ofNat k⟩ = Nat.toDigits 10 digits ++ List.replicate k '0' :=
        if_neg hzero
      rw [htext, ofText?_whole negative (by simp [Nat.toDigits_ne_nil])
        (List.forall_mem_append.2 ⟨hdigits, hzeros k⟩), Text.natOfDigits_append_zeros, hvalue,
        ofDecimal_mul_pow, Int.zero_add, Int.ofNat_eq_natCast]
  | negSucc k =>
    have hplaces : ∀ n : Nat, n = k + 1 → -(n : Int) = .negSucc k := by
      rintro n rfl
      rfl
    by_cases hlength : k + 1 < (Nat.toDigits 10 digits).length
    · generalize hsplit : (Nat.toDigits 10 digits).length - (k + 1) = whole
      have htext : Decimal.positional ⟨digits, .negSucc k⟩ =
          (Nat.toDigits 10 digits).take whole ++ '.' :: (Nat.toDigits 10 digits).drop whole :=
        hsplit ▸ if_pos hlength
      have hne : (Nat.toDigits 10 digits).take whole ≠ [] := by
        rw [Ne, List.take_eq_nil_iff]
        simp only [Nat.toDigits_ne_nil, or_false]
        omega
      rw [htext, ofText?_fraction negative hne (fun c hc => hdigits c (List.mem_of_mem_take hc))
        (fun c hc => hdigits c (List.mem_of_mem_drop hc)), List.take_append_drop, hvalue,
        hplaces _ (by rw [List.length_drop]; omega)]
    · generalize hmissing : k + 1 - (Nat.toDigits 10 digits).length = missing
      have htext : Decimal.positional ⟨digits, .negSucc k⟩ =
          ['0'] ++ '.' :: (List.replicate missing '0' ++ Nat.toDigits 10 digits) :=
        hmissing ▸ if_neg hlength
      rw [htext, ofText?_fraction negative (by simp) (List.forall_mem_singleton.2 (by decide))
        (List.forall_mem_append.2 ⟨hzeros missing, hdigits⟩), ← List.append_assoc,
        show ['0'] ++ List.replicate missing '0' = List.replicate (missing + 1) '0' from rfl,
        Text.natOfDigits_zeros_append, hvalue, hplaces _ (by simp; omega)]

/-- The text of a number is read back as that number. -/
theorem ofText?_toText {x : Binary64} (h : x.isNaN = false) : ofText? x.toText = some x := by
  by_cases hfinite : x.isFinite = true
  · rw [toText, h, if_neg Bool.false_ne_true, hfinite, if_pos rfl, signed, ofText?_positional,
      ofDecimal_shortest _ hfinite]
  · have hmagnitude : x.magnitude.val = infinityPlace := by
      simp only [isNaN, isFinite, decide_eq_true_eq, decide_eq_false_iff_not] at h hfinite
      omega
    have hinfinite : x = infinite x.negative :=
      congrArg (Binary64.mk x.negative) (Fin.ext hmagnitude)
    rw [hinfinite]
    cases x.negative <;> decide +kernel

theorem toText_inj {x y : Binary64} (hx : x.isNaN = false) (hy : y.isNaN = false) :
    x.toText = y.toText ↔ x = y := by
  refine ⟨fun h => ?_, fun h => h ▸ rfl⟩
  have hread := ofText?_toText hx
  rw [h, ofText?_toText hy] at hread
  exact (Option.some.inj hread).symm

end Reading

end Binary64

end EntitySql
