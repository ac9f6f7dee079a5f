import EntitySql.Text.LetterCase
/-!
# Lower case in two strengths

Lowering all letters makes no difference between texts that lowering the letters of ASCII makes equal
(`Text.lowered_asciiLowered`). The one place where neighbours matter is the final sigma, and there a
letter of ASCII is cased and not passed over, whichever case it has.
-/

namespace EntitySql.Text

/-- Only capitals have another lower case, which stands 32 places behind them. -/
theorem toLower_eq_or (c : Char) :
    c.toLower = c ∨ 65 ≤ c.toNat ∧ c.toNat ≤ 90 ∧ c.toLower.toNat = c.toNat + 32 := by
  unfold Char.toLower
  split
  · rename_i hupper
    have hlow : 65 ≤ c.toNat := UInt32.le_iff_toNat_le.1 hupper.1
    have hhigh : c.toNat ≤ 90 := UInt32.le_iff_toNat_le.1 hupper.2
    have hsmall : c.val.toNat + (32 : UInt32).toNat < 2 ^ 32 := by
      change c.toNat + 32 < 2 ^ 32
      omega
    exact .inr ⟨hlow, hhigh, (UInt32.toNat_add c.val 32).trans (Nat.mod_eq_of_lt hsmall)⟩
  · exact .inl rfl

theorem toLower_toLower (c : Char) : c.toLower.toLower = c.toLower := by
  rcases toLower_eq_or c with hsame | ⟨hlow, _, hplace⟩
  · rw [hsame, hsame]
  · exact (toLower_eq_or c.toLower).resolve_right (by omega)

theorem toLower_eq_sigma_iff {c : Char} : c.toLower = 'Σ' ↔ c = 'Σ' := by
  have hsigma : 'Σ'.toNat = 931 := rfl
  rcases toLower_eq_or c with hsame | ⟨hlow, hhigh, hplace⟩
  · rw [hsame]
  · constructor
    · intro h
      rw [h] at hplace
      omega
    · rintro rfl
      omega

/-- Letters of ASCII are cased, and none of them is passed over. -/
theorem inRanges_capital {n : Nat} (hlow : 65 ≤ n) (hhigh : n ≤ 90) :
    inRanges LetterCase.casedRanges n = true ∧ inRanges LetterCase.casedRanges (n + 32) = true ∧
      inRanges LetterCase.ignorableRanges n = false ∧
      inRanges LetterCase.ignorableRanges (n + 32) = false := by
  have hall : ∀ k : Fin 26, inRanges LetterCase.casedRanges (65 + k) = true ∧
      inRanges LetterCase.casedRanges (65 + k + 32) = true ∧
      inRanges LetterCase.ignorableRanges (65 + k) = false ∧
      inRanges LetterCase.ignorableRanges (65 + k + 32) = false := by decide +kernel
  obtain ⟨k, rfl⟩ := Nat.exists_eq_add_of_le hlow
  exact hall ⟨k, by omega⟩

theorem isCased_toLower (c : Char) : isCased c.toLower = isCased c := by
  rcases toLower_eq_or c with hsame | ⟨hlow, hhigh, hplace⟩
  · rw [hsame]
  · obtain ⟨hcapital, hsmall, _⟩ := inRanges_capital hlow hhigh
    rw [isCased, isCased, hplace, hcapital, hsmall]

theorem isCaseIgnorable_toLower (c : Char) : isCaseIgnorable c.toLower = isCaseIgnorable c := by
  rcases toLower_eq_or c with hsame | ⟨hlow, hhigh, hplace⟩
  · rw [hsame]
  · obtain ⟨_, _, hcapital, hsmall⟩ := inRanges_capital hlow hhigh
    rw [isCaseIgnorable, isCaseIgnorable, hplace, hcapital, hsmall]

theorem lowerForm_toLower (c : Char) : lowerForm c.toLower = lowerForm c := by
  rcases toLower_eq_or c with hsame | ⟨hlow, hhigh, hplace⟩
  · rw [hsame]
  · have hcapital : lowerForm c = [c.toLower] := if_pos (by omega)
    have hsmall : lowerForm c.toLower = [c.toLower.toLower] := if_pos (by omega)
    rw [hcapital, hsmall, toLower_toLower]

theorem reachesCased_map (cs : List Char) : reachesCased (cs.map Char.toLower) = reachesCased cs := by
  have hpassed : isCaseIgnorable ∘ Char.toLower = isCaseIgnorable := funext isCaseIgnorable_toLower
  rw [reachesCased, reachesCased, List.dropWhile_map, hpassed]
  cases cs.dropWhile isCaseIgnorable with
  | nil => rfl
  | cons c rest => exact isCased_toLower c

theorem lowerAfter_map (before cs : List Char) :
    lowerAfter (before.map Char.toLower) (cs.map Char.toLower) = lowerAfter before cs := by
  induction cs generalizing before with
  | nil => rfl
  | cons c rest ih =>
    have hrest := ih (c :: before)
    rw [List.map_cons] at hrest
    simp only [List.map_cons, lowerAfter, hrest, reachesCased_map, lowerForm_toLower,
      toLower_eq_sigma_iff]

/-- Letters that are lowered already make no difference. -/
theorem lowered_asciiLowered (s : String) : lowered (asciiLowered s) = lowered s := by
  rw [lowered, lowered, asciiLowered, String.toList_ofList, lower, lower]
  exact congrArg String.ofList (lowerAfter_map [] s.toList)

end EntitySql.Text
