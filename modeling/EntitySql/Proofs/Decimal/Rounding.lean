import Mathlib.Algebra.Order.Field.Power
import Mathlib.Data.Int.Log
import Mathlib.Data.Rat.Floor
import Mathlib.Tactic.FieldSimp
import Mathlib.Tactic.Linarith
import EntitySql.Decimal.Binary64
/-!
# Rounding to a number of 64 bits

`Binary64.ofRatio` depends on the quotient of its arguments alone (`Binary64.ofRatio_congr`), and it
finds every finite number from its exact value (`Binary64.ofRatio_of_value`). Whole numbers below
`2 ^ 53` in size are exact and are therefore told apart from all others
(`Binary64.ofInt_eq_ofInt_iff`).
-/

namespace EntitySql.Binary64

variable {num den : Nat}

/-! ## Quotients of natural numbers -/

theorem roundQuotient_mul_left {c : Nat} (hc : 0 < c) (num den : Nat) :
    roundQuotient (c * num) (c * den) = roundQuotient num den := by
  have htwice : 2 * (c * (num % den)) = c * (2 * (num % den)) := Nat.mul_left_comm 2 c _
  simp only [roundQuotient, Nat.mul_div_mul_left _ _ hc, Nat.mul_mod_mul_left, htwice,
    Nat.mul_lt_mul_left hc, Nat.mul_right_inj hc.ne']

theorem roundQuotient_mul_self (m : Nat) (hden : 0 < den) : roundQuotient (m * den) den = m := by
  simp [roundQuotient, Nat.mul_div_cancel m hden, hden]

theorem le_roundQuotient {q : Nat} (hden : 0 < den) (h : q * den ≤ num) : q ≤ roundQuotient num den := by
  have hfloor : q ≤ num / den := (Nat.le_div_iff_mul_le hden).2 h
  unfold roundQuotient
  dsimp only
  split_ifs <;> omega

theorem shifted_mul_left (c num den : Nat) (shift : Int) :
    shifted (c * num) (c * den) shift =
      (c * (shifted num den shift).1, c * (shifted num den shift).2) := by
  cases shift <;> simp only [shifted, Nat.mul_assoc]

theorem shifted_pos (hden : 0 < den) (num : Nat) (shift : Int) : 0 < (shifted num den shift).2 := by
  cases shift with
  | ofNat k => exact hden
  | negSucc k => exact Nat.mul_pos hden (Nat.pow_pos Nat.two_pos)

theorem shifted_div (num den : Nat) (shift : Int) :
    ((shifted num den shift).1 : ℚ) / (shifted num den shift).2 = num / den * 2 ^ shift := by
  cases shift with
  | ofNat k =>
    simp only [shifted, Nat.pow_eq, Int.ofNat_eq_natCast, zpow_natCast]
    push_cast
    ring
  | negSucc k =>
    simp only [shifted, Nat.pow_eq, zpow_negSucc]
    push_cast
    rw [div_mul_eq_div_div, div_eq_mul_inv (_ / _ : ℚ)]

theorem shifted_lt_iff (hden : 0 < den) (num : Nat) (shift : Int) :
    (shifted num den shift).1 < (shifted num den shift).2 ↔ (num : ℚ) / den * 2 ^ shift < 1 := by
  rw [← shifted_div, div_lt_one (by exact_mod_cast shifted_pos hden num shift), Nat.cast_lt]

/-- The logarithm is found from the two powers around a number. -/
theorem log_eq_of_bounds {r : ℚ} (hr : 0 < r) {order : Int} (hlow : (2 : ℚ) ^ order ≤ r)
    (hhigh : r < 2 ^ (order + 1)) : Int.log 2 r = order := by
  have hle := (Int.zpow_le_iff_le_log Nat.one_lt_two hr).1 (by exact_mod_cast hlow)
  have hlt := (Int.lt_zpow_iff_log_lt Nat.one_lt_two hr).1 (by exact_mod_cast hhigh)
  omega

theorem binaryOrder_eq_log (hnum : 0 < num) (hden : 0 < den) :
    binaryOrder num den = Int.log 2 ((num : ℚ) / den) := by
  have hpower : ∀ n : Nat, n ≠ 0 → (2 : ℚ) ^ n.log2 ≤ n ∧ (n : ℚ) < 2 ^ (n.log2 + 1) := fun n hn =>
    ⟨by exact_mod_cast Nat.log2_self_le hn, by exact_mod_cast Nat.lt_log2_self⟩
  obtain ⟨hnumLow, hnumHigh⟩ := hpower num hnum.ne'
  obtain ⟨hdenLow, hdenHigh⟩ := hpower den hden.ne'
  have hquotient : (0 : ℚ) < num / den := by positivity
  have hbinary : binaryOrder num den =
      if (shifted num den (-((num.log2 : Int) - den.log2))).1 <
        (shifted num den (-((num.log2 : Int) - den.log2))).2
      then (num.log2 : Int) - den.log2 - 1 else (num.log2 : Int) - den.log2 := rfl
  have hsplit : (2 : ℚ) ^ ((num.log2 : Int) - den.log2) * 2 ^ den.log2 = 2 ^ num.log2 := by
    rw [zpow_sub₀ (by norm_num), zpow_natCast, zpow_natCast]
    field_simp
  rw [hbinary]
  generalize (num.log2 : Int) - den.log2 = guess at hsplit ⊢
  have hpos : (0 : ℚ) < 2 ^ guess := by positivity
  have hiff := shifted_lt_iff hden num (-guess)
  rw [zpow_neg, ← div_eq_mul_inv, div_lt_one hpos] at hiff
  -- The guess is right or one too great.
  rw [pow_succ] at hnumHigh hdenHigh
  split
  · rename_i h
    refine (log_eq_of_bounds hquotient ?_ ?_).symm
    · rw [zpow_sub_one₀ (by norm_num), le_div_iff₀ (by positivity)]
      nlinarith
    · rw [sub_add_cancel]
      exact hiff.1 h
  · rename_i h
    refine (log_eq_of_bounds hquotient (not_lt.1 (mt hiff.2 h)) ?_).symm
    rw [zpow_add_one₀ (by norm_num), div_lt_iff₀ (by positivity)]
    nlinarith

/-! ## Rounding depends on the quotient -/

@[simp]
theorem negative_ofRatio (negative : Bool) (num den : Nat) : (ofRatio negative num den).negative = negative := by
  unfold ofRatio
  dsimp only
  split_ifs <;> rfl

theorem ofRatio_eq_withSign (negative : Bool) (num den : Nat) :
    ofRatio negative num den = withSign negative (ofRatio false num den) := by
  unfold ofRatio withSign
  dsimp only
  split_ifs <;> rfl

/-- The place is that of the rounded quotient above all places with a lesser unit, but infinity is
the last one. -/
theorem magnitude_ofRatio (negative : Bool) (hnum : 0 < num) {unit : Int}
    (hunit : max (binaryOrder num den - 52) (-1074) = unit) :
    (ofRatio negative num den).magnitude.val =
      min ((unit + 1074).toNat * placesPerPower +
        roundQuotient (shifted num den (-unit)).1 (shifted num den (-unit)).2) infinityPlace := by
  have hround (place : Nat) : (if h : place < infinityPlace then
      (⟨negative, ⟨place, Nat.lt_trans h (by decide)⟩⟩ : Binary64) else infinite negative).magnitude.val =
        min place infinityPlace := by
    split_ifs with h
    · exact (min_eq_left (Nat.le_of_lt h)).symm
    · exact (min_eq_right (Nat.le_of_not_lt h)).symm
  simp only [ofRatio, hnum.ne', if_false, hunit]
  exact hround _

theorem isNaN_ofRatio (negative : Bool) (num den : Nat) : (ofRatio negative num den).isNaN = false := by
  unfold ofRatio isNaN
  dsimp only
  split_ifs with hzero hplace
  · exact decide_eq_false (Nat.not_lt_zero _)
  · exact decide_eq_false (Nat.lt_asymm hplace)
  · exact decide_eq_false (Nat.lt_irrefl _)

theorem ofRatio_mul_left {c : Nat} (hc : 0 < c) (negative : Bool) (num : Nat) (hden : 0 < den) :
    ofRatio negative (c * num) (c * den) = ofRatio negative num den := by
  rcases Nat.eq_zero_or_pos num with rfl | hnum
  · simp [ofRatio]
  · have horder : binaryOrder (c * num) (c * den) = binaryOrder num den := by
      rw [binaryOrder_eq_log (Nat.mul_pos hc hnum) (Nat.mul_pos hc hden), binaryOrder_eq_log hnum hden,
        Nat.cast_mul, Nat.cast_mul, mul_div_mul_left _ _ (by positivity)]
    have hzero : c * num = 0 ↔ num = 0 := by simp [hc.ne']
    simp only [ofRatio, hzero, horder, shifted_mul_left, roundQuotient_mul_left hc]

theorem ofRatio_congr {num' den' : Nat} (hden : 0 < den) (hden' : 0 < den')
    (h : (num : ℚ) / den = num' / den') (negative : Bool) :
    ofRatio negative num den = ofRatio negative num' den' := by
  rw [div_eq_div_iff (by positivity) (by positivity)] at h
  have hcross : num * den' = num' * den := by exact_mod_cast h
  rw [← ofRatio_mul_left hden' negative num hden, ← ofRatio_mul_left hden negative num' hden',
    Nat.mul_comm den' num, Nat.mul_comm den num', Nat.mul_comm den' den, hcross]

/-! ## Exact values -/

theorem infinityPlace_eq : infinityPlace = 2047 * placesPerPower := by decide

/-- The value of a finite number without its sign. -/
def value (x : Binary64) : ℚ := x.significand * 2 ^ x.exponent

theorem significand_lt (x : Binary64) : x.significand < 2 * placesPerPower := by
  have hfraction := Nat.mod_lt x.magnitude.val (show 0 < placesPerPower by decide)
  unfold significand
  split
  · rename_i hpower
    have hsmall := (Nat.div_eq_zero_iff.1 hpower).resolve_left (by decide)
    omega
  · omega

theorem neg_le_exponent (x : Binary64) : -1074 ≤ x.exponent := by
  unfold exponent
  split
  · exact le_rfl
  · rename_i hpower
    generalize x.magnitude.val / placesPerPower = power at hpower
    omega

/-- The place of a number from its whole number and its power of two. -/
theorem magnitude_eq (x : Binary64) :
    x.magnitude.val = (x.exponent + 1074).toNat * placesPerPower + x.significand := by
  have hdivision := Nat.div_add_mod' x.magnitude.val placesPerPower
  unfold exponent significand
  split
  · simp
  · rename_i hpower
    obtain ⟨power, heq⟩ := Nat.exists_eq_succ_of_ne_zero hpower
    rw [heq] at hdivision ⊢
    have htoNat : ((power.succ : Nat) - 1075 + 1074 : Int).toNat = power := by omega
    rw [htoNat]
    rw [Nat.succ_mul] at hdivision
    omega

theorem value_pos {x : Binary64} (h : 0 < x.significand) : 0 < x.value := by
  unfold value
  positivity

theorem log_value_lt_iff {x : Binary64} (h : 0 < x.significand) (k : Nat) :
    Int.log 2 x.value < x.exponent + k ↔ x.significand < 2 ^ k := by
  have hpower : (0 : ℚ) < 2 ^ x.exponent := by positivity
  rw [← Int.lt_zpow_iff_log_lt Nat.one_lt_two (value_pos h), value, Nat.cast_ofNat,
    zpow_add₀ (by norm_num), mul_comm, mul_lt_mul_iff_right₀ hpower, zpow_natCast]
  exact_mod_cast Iff.rfl

/-- The unit of the last place is that of the number which has the value. -/
theorem unit_of_value {x : Binary64} (h : 0 < x.significand) :
    max (Int.log 2 x.value - 52) (-1074) = x.exponent := by
  have htop := (log_value_lt_iff h 53).2 x.significand_lt
  by_cases hpower : x.magnitude.val / placesPerPower = 0
  · have hexponent : x.exponent = -1074 := if_pos hpower
    have hsmall : x.significand < 2 ^ 52 := by
      rw [significand, if_pos hpower]
      exact (Nat.div_eq_zero_iff.1 hpower).resolve_left (by decide)
    have hlow := (log_value_lt_iff h 52).2 hsmall
    omega
  · have hlarge : ¬x.significand < 2 ^ 52 := by
      rw [significand, if_neg hpower]
      exact Nat.not_lt.2 (Nat.le_add_right placesPerPower _)
    have hbottom := mt (log_value_lt_iff h 52).1 hlarge
    have hleast := x.neg_le_exponent
    omega

theorem eq_zero_of_significand {x : Binary64} (h : x.significand = 0) : x = zero x.negative := by
  have hmagnitude : x.magnitude.val = 0 := by
    unfold significand at h
    split at h
    · exact h
    · exact absurd h (by simp [placesPerPower])
  exact congrArg (Binary64.mk x.negative) (Fin.ext hmagnitude)

/-- A finite number is found from its exact value. -/
theorem ofRatio_of_value {x : Binary64} (hx : x.isFinite = true) (hden : 0 < den)
    (h : (num : ℚ) / den = x.value) : ofRatio x.negative num den = x := by
  rcases Nat.eq_zero_or_pos x.significand with hzero | hpos
  · have hnum : num = 0 := by
      rw [value, hzero, Nat.cast_zero, zero_mul, div_eq_zero_iff] at h
      exact_mod_cast h.resolve_right (by positivity)
    rw [hnum]
    exact (eq_zero_of_significand hzero).symm
  · have hnum : 0 < num := by
      refine Nat.pos_of_ne_zero ?_
      rintro rfl
      rw [Nat.cast_zero, zero_div] at h
      exact (value_pos hpos).ne h
    have hunit : max (binaryOrder num den - 52) (-1074) = x.exponent := by
      rw [binaryOrder_eq_log hnum hden, h, unit_of_value hpos]
    have hshifted := shifted_div num den (-x.exponent)
    have hshiftedPos := shifted_pos hden num (-x.exponent)
    rw [h, value, mul_assoc, ← zpow_add₀ (by norm_num), add_neg_cancel, zpow_zero, mul_one,
      div_eq_iff (by positivity)] at hshifted
    have hexact : (shifted num den (-x.exponent)).1 =
        x.significand * (shifted num den (-x.exponent)).2 := by exact_mod_cast hshifted
    have hmagnitude : (ofRatio x.negative num den).magnitude = x.magnitude := by
      refine Fin.ext ?_
      rw [magnitude_ofRatio _ hnum hunit, hexact, roundQuotient_mul_self _ hshiftedPos, ← magnitude_eq]
      exact min_eq_left (of_decide_eq_true hx).le
    exact congrArg₂ Binary64.mk (negative_ofRatio _ _ _) hmagnitude

/-! ## Whole numbers -/

/-- Whole numbers of full length times a power of two that is not too great are exact. -/
theorem exists_value_eq {m k : Nat} (hlow : placesPerPower ≤ m) (hhigh : m < 2 * placesPerPower)
    (hk : k ≤ 2045) :
    ∃ x : Binary64, x.negative = false ∧ x.isFinite = true ∧ x.value = m * 2 ^ ((k : Int) - 1074) := by
  simp only [placesPerPower] at hlow hhigh
  have hbound : k * placesPerPower + m < infinityPlace := by
    simp only [placesPerPower, infinityPlace]
    omega
  refine ⟨⟨false, ⟨k * placesPerPower + m, hbound.trans (by decide)⟩⟩, rfl, decide_eq_true hbound, ?_⟩
  have hpower : (k * placesPerPower + m) / placesPerPower = k + 1 := by
    simp only [placesPerPower]
    omega
  have hrest : placesPerPower + (k * placesPerPower + m) % placesPerPower = m := by
    simp only [placesPerPower]
    omega
  simp only [value, significand, exponent, hpower, hrest, Nat.add_eq_zero_iff, one_ne_zero, and_false,
    if_false]
  congr 2
  omega

/-- Whole numbers below `2 ^ 53` are exact. -/
theorem value_ofNat {n : Nat} (h : n < 2 ^ 53) : (ofNat n).value = n := by
  rcases Nat.eq_zero_or_pos n with rfl | hpos
  · simp [ofNat, ofRatio, zero, value, significand]
  · obtain ⟨k, hk⟩ := Nat.exists_eq_add_of_le (Nat.lt_succ_iff.1 ((Nat.log2_lt hpos.ne').2 h))
    have hlow : placesPerPower ≤ n * 2 ^ k := by
      rw [show placesPerPower = 2 ^ 52 from rfl, hk, pow_add]
      exact Nat.mul_le_mul_right _ (Nat.log2_self_le hpos.ne')
    have hhigh : n * 2 ^ k < 2 * placesPerPower := by
      rw [show 2 * placesPerPower = 2 ^ (52 + 1) from rfl, hk, Nat.add_right_comm, pow_add]
      exact Nat.mul_lt_mul_of_pos_right Nat.lt_log2_self (by positivity)
    obtain ⟨x, hsign, hfinite, hvalue⟩ :=
      exists_value_eq hlow hhigh (show n.log2 + 1022 ≤ 2045 by omega)
    have hexact : (n : ℚ) / (1 : Nat) = x.value := by
      have hunit : ((n.log2 + 1022 : Nat) : Int) - 1074 = -k := by omega
      rw [hvalue, hunit, zpow_neg, zpow_natCast]
      push_cast
      field_simp
    rw [ofNat, ← hsign, ofRatio_of_value hfinite Nat.one_pos hexact, ← hexact]
    simp

theorem le_value {x : Binary64} {k : Nat} (h : (k + 1) * placesPerPower ≤ x.magnitude.val) :
    placesPerPower * 2 ^ ((k : Int) - 1074) ≤ x.value := by
  have hpower : k + 1 ≤ x.magnitude.val / placesPerPower := (Nat.le_div_iff_mul_le (by decide)).2 h
  have hne : x.magnitude.val / placesPerPower ≠ 0 := by omega
  have hexponent : (k : Int) - 1074 ≤ x.exponent := by
    rw [exponent, if_neg hne]
    omega
  have hsignificand : placesPerPower ≤ x.significand := by
    rw [significand, if_neg hne]
    exact Nat.le_add_right _ _
  exact mul_le_mul (by exact_mod_cast hsignificand) (zpow_le_zpow_right₀ (by norm_num) hexponent)
    (by positivity) (by positivity)

/-- A number of at least full length keeps its order when it is rounded. -/
theorem le_magnitude_ofRatio (hnum : 0 < num) (hden : 0 < den) (negative : Bool) {k : Nat}
    (hk : k ≤ 2046) (h : (k : Int) - 1022 ≤ binaryOrder num den) :
    (k + 1) * placesPerPower ≤ (ofRatio negative num den).magnitude.val := by
  have hunit : max (binaryOrder num den - 52) (-1074) = binaryOrder num den - 52 := by omega
  have hpower : k ≤ (binaryOrder num den - 52 + 1074).toNat := by omega
  have hlow : (2 : ℚ) ^ binaryOrder num den ≤ num / den := by
    rw [binaryOrder_eq_log hnum hden]
    exact_mod_cast Int.zpow_log_le_self Nat.one_lt_two (show (0 : ℚ) < num / den by positivity)
  have hshifted := shifted_div num den (-(binaryOrder num den - 52))
  have hshiftedPos := shifted_pos hden num (-(binaryOrder num den - 52))
  have hlength : placesPerPower * (shifted num den (-(binaryOrder num den - 52))).2 ≤
      (shifted num den (-(binaryOrder num den - 52))).1 := by
    refine (Nat.cast_le (α := ℚ)).1 ?_
    push_cast
    rw [← le_div_iff₀ (by positivity), hshifted, neg_sub, zpow_sub₀ (by norm_num),
      ← mul_div_assoc, le_div_iff₀ (by positivity), mul_comm (_ / _ : ℚ)]
    exact mul_le_mul_of_nonneg_left hlow (by positivity)
  rw [magnitude_ofRatio _ hnum hunit, infinityPlace_eq, Nat.succ_mul]
  refine le_min (Nat.add_le_add (Nat.mul_le_mul_right _ hpower) (le_roundQuotient hshiftedPos hlength)) ?_
  rw [← Nat.succ_mul]
  exact Nat.mul_le_mul_right _ (by omega)

theorem negative_ofInt (n : Int) : (ofInt n).negative = decide (n < 0) := negative_ofRatio _ _ _

theorem value_ofInt (n : Int) : (ofInt n).value = (ofNat n.natAbs).value := by
  rw [ofInt, ofRatio_eq_withSign]
  rfl

/-- Rounding does not bring a great number below `2 ^ 53`. -/
theorem le_value_ofNat {n : Nat} (h : 2 ^ 53 ≤ n) : 2 ^ 53 ≤ (ofNat n).value := by
  have hpos : 0 < n := by omega
  have horder : ((1075 : Nat) : Int) - 1022 ≤ binaryOrder n 1 := by
    rw [binaryOrder_eq_log hpos Nat.one_pos]
    refine (Int.zpow_le_iff_le_log Nat.one_lt_two (by positivity)).1 ?_
    have hcast : ((2 ^ 53 : Nat) : ℚ) ≤ n := by exact_mod_cast h
    norm_num at hcast ⊢
    exact hcast
  have hvalue := le_value (le_magnitude_ofRatio hpos Nat.one_pos false (by norm_num) horder)
  norm_num [placesPerPower] at hvalue ⊢
  exact hvalue

/-- Whole numbers below `2 ^ 53` in size are told apart from all others. -/
theorem ofInt_eq_ofInt_iff {a b : Int} (ha : a.natAbs < 2 ^ 53) : ofInt a = ofInt b ↔ a = b := by
  refine ⟨fun h => ?_, fun h => h ▸ rfl⟩
  have hvalue : (a.natAbs : ℚ) = (ofNat b.natAbs).value := by
    rw [← value_ofNat ha, ← value_ofInt, ← value_ofInt, h]
  have hb : b.natAbs < 2 ^ 53 := by
    by_contra hb
    have hlarge := le_value_ofNat (not_lt.1 hb)
    rw [← hvalue] at hlarge
    exact absurd hlarge (not_le.2 (by exact_mod_cast ha))
  rw [value_ofNat hb, Nat.cast_inj] at hvalue
  have hsign := congrArg negative h
  rw [negative_ofInt, negative_ofInt, decide_eq_decide] at hsign
  omega

/-- From `2 ^ 53` on, neighbours may be the same number. -/
example : ofInt (2 ^ 53) = ofInt (2 ^ 53 + 1) := by decide +kernel

end EntitySql.Binary64
