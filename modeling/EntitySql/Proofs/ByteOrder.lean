/-!
# Texts in the order of their bytes

Texts are compared character by character. That is the order of their bytes in UTF-8
(`Text.bytes_le_bytes_iff`): the first byte of a character grows with the number of bytes that it takes, and
among characters of one length the bytes are the digits of the character's number.
-/

namespace EntitySql.Text

/-- The bytes of a text in UTF-8. -/
def bytes (text : String) : List UInt8 := text.toByteArray.data.toList

theorem bytes_eq (text : String) : bytes text = text.toList.flatMap String.utf8EncodeChar := by
  have hencode : text.toList.utf8Encode = text.toByteArray := by simp
  rw [bytes, ← hencode, List.utf8Encode, List.data_toByteArray]

/-- The first byte decides, and what follows decides between equal ones. -/
theorem cons_lt_cons {m n : Nat} (hm : m < 256) (hn : n < 256) {first second : List UInt8}
    (hle : m ≤ n) (hrest : m = n → first < second) :
    UInt8.ofNat m :: first < UInt8.ofNat n :: second := by
  rw [List.cons_lt_cons_iff]
  rcases Nat.lt_or_eq_of_le hle with hless | hsame
  · left
    rwa [UInt8.lt_iff_toNat_lt, UInt8.toNat_ofNat_of_lt' hm, UInt8.toNat_ofNat_of_lt' hn]
  · exact .inr ⟨congrArg UInt8.ofNat hsame, hrest hsame⟩

/-- The smaller character has the smaller bytes, whatever follows. -/
theorem utf8EncodeChar_append_lt {c d : Char} (h : c < d) (first second : List UInt8) :
    String.utf8EncodeChar c ++ first < String.utf8EncodeChar d ++ second := by
  have hless : c.val.toNat < d.val.toNat := h
  have hmax : d.val.toNat < 0x110000 := by
    rcases d.valid with h | h <;> omega
  generalize hm : c.val.toNat = m at hless
  generalize hn : d.val.toNat = n at hless hmax
  simp only [String.utf8EncodeChar, hm, hn]
  -- One case for each pair of lengths. Those in which the smaller character is the longer one are none.
  repeat' split
  all_goals repeat' refine cons_lt_cons (by omega) (by omega) (by omega) fun _ => ?_
  all_goals omega

theorem flatMap_utf8EncodeChar_lt {first second : List Char} (h : first < second) :
    first.flatMap String.utf8EncodeChar < second.flatMap String.utf8EncodeChar := by
  induction h with
  | @nil c rest =>
    obtain ⟨byte, others, hbytes⟩ := List.exists_cons_of_ne_nil (String.utf8EncodeChar_ne_nil (c := c))
    rw [List.flatMap_nil, List.flatMap_cons, hbytes]
    exact List.nil_lt_cons _ _
  | rel h => exact utf8EncodeChar_append_lt h _ _
  | cons _ ih => exact List.append_left_lt ih

/-- The order of texts is that of their bytes. -/
theorem bytes_le_bytes_iff {first second : String} : bytes first ≤ bytes second ↔ first ≤ second := by
  have hless : ∀ {first second : String}, first < second → bytes first < bytes second := by
    intro first second h
    rw [bytes_eq, bytes_eq]
    exact flatMap_utf8EncodeChar_lt h
  constructor
  · intro hle
    refine Decidable.byContradiction fun hnot => ?_
    exact hle (hless (String.not_le.1 hnot))
  · intro hle
    by_cases hother : second ≤ first
    · rw [String.le_antisymm hle hother]
      exact List.le_refl _
    · exact List.le_of_lt (hless (String.not_le.1 hother))

end EntitySql.Text
