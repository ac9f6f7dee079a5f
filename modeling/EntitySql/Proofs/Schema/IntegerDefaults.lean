import EntitySql.Proofs.Decimal.ReadBack
import EntitySql.Proofs.Schema.Changes
import EntitySql.Proofs.Schema.DefaultLiteral
/-!
# Whole numbers as defaults

Defaults are compared by keys, and the key of a whole number is the text of the 64-bit floating-point
number nearest to it (`ColumnDefault.textKey?_toString`). Two whole numbers have one key exactly when that
number is the same (`ColumnDefault.key?_integer_eq_iff`), so a column whose default changes from one to
the other is altered exactly when it is not (`Schema.alters_integer_default_iff`). Numbers below `2 ^ 53`
in size are told apart from all others; `2 ^ 53` and its successor are not.
-/

namespace EntitySql

/-- Whether a whole number fits in 64 bits with sign. -/
def IsInt64 (n : Int) : Prop := -2 ^ 63 ≤ n ∧ n < 2 ^ 63

instance (n : Int) : Decidable (IsInt64 n) := inferInstanceAs (Decidable (_ ∧ _))

namespace Binary64

theorem ofDecimal_zero_exponent (negative : Bool) {n : Nat} (h : n < 10 ^ 310) :
    ofDecimal negative n 0 = ofRatio negative n 1 := by
  rcases Nat.eq_zero_or_pos n with rfl | hpos
  · rfl
  have hlength := (decimalLength_le_iff (n := n) (by decide : 0 < 310)).2 h
  have hbounds : -330 ≤ (0 : Int) + decimalLength n ∧ (0 : Int) + decimalLength n ≤ 310 := by omega
  obtain ⟨num, den, hden, hvalue, heq⟩ := exists_ofDecimal_eq_ofRatio hpos hbounds.1 hbounds.2
  rw [heq]
  refine ofRatio_congr hden Nat.one_pos ?_ negative
  rw [hvalue]
  simp

theorem ofText?_toString_of_isInt64 {n : Int} (h : IsInt64 n) : ofText? (toString n) = some (ofInt n) := by
  have hbound : n.natAbs ≤ 2 ^ 63 := by
    obtain ⟨hlow, hhigh⟩ := h
    omega
  have hpower : 2 ^ 63 < 10 ^ 310 := by decide +kernel
  rw [ofText?_toString, ofDecimal_zero_exponent _ (hbound.trans_lt hpower)]
  rfl

theorem isNaN_ofInt (n : Int) : (ofInt n).isNaN = false := isNaN_ofRatio _ _ _

end Binary64

namespace ColumnDefault

open Binary64

/-- All characters of a number stand in front of the letters. -/
theorem toNat_lt_of_isSigned {cs : List Char} (h : Lexer.IsSigned cs) : ∀ c ∈ cs, c.toNat < 58 := by
  intro c hc
  rcases h.chars c hc with hnumeral | rfl
  · simp only [Lexer.isNumeralChar, Bool.or_eq_true, beq_iff_eq] at hnumeral
    rcases hnumeral with hdigit | rfl
    · exact Nat.lt_succ_of_le (Text.range_of_isDigit hdigit).2
    · decide
  · decide

theorem map_toLower_of_isSigned {cs : List Char} (h : Lexer.IsSigned cs) : cs.map Char.toLower = cs := by
  refine List.map_congr_left (g := id) (fun c hc => ?_) |>.trans (List.map_id _)
  have hsmall := toNat_lt_of_isSigned h c hc
  exact (Text.toLower_eq_or c).resolve_right fun hupper => by omega

/-- The text of a whole number is read as it stands: it has no letters, so it is neither a word nor a
call. -/
theorem textKey?_toString (boolean : Bool) {n : Int} (h : IsInt64 n) :
    textKey? boolean (toString n) =
      if boolean = true ∧ n = 1 then some "true"
      else if boolean = true ∧ n = 0 then some "false"
      else some (ofInt n).toText := by
  have hsigned := Lexer.isSigned_int n
  have hfixed := isFixed_of_forall (isNumberChar_of_isSigned hsigned)
  have hletters : ∀ word : List Char, word.any (58 ≤ Char.toNat ·) = true →
      ¬word <+: (toString n).toList := by
    intro word hword hstart
    obtain ⟨c, hc, hletter⟩ := List.any_eq_true.1 hword
    have hsmall := toNat_lt_of_isSigned hsigned c (hstart.subset hc)
    simp only [decide_eq_true_eq] at hletter
    omega
  have hwords : ∀ words : List (List Char), words.all (·.any (58 ≤ Char.toNat ·)) = true →
      (toString n).toList ∉ words := fun words hall hmem =>
    hletters _ (List.all_eq_true.1 hall _ hmem) (List.prefix_refl _)
  have hquote : ∀ quote ∈ ['\'', '"'], (toString n).toList.head? ≠ some quote := by
    intro quote hquote hhead
    have hnone : ∀ quote ∈ ['\'', '"'], ¬(Lexer.isNumeralChar quote = true ∨ quote = '-') :=
      List.forall_mem_cons.2 ⟨by decide, List.forall_mem_singleton.2 (by decide)⟩
    exact hnone quote hquote (hsigned.chars quote (List.mem_of_mem_head? hhead))
  have hnull : (toString n).toList ≠ "null".toList := fun heq =>
    hwords ["null".toList] (by decide) (heq ▸ List.mem_singleton_self _)
  have hdigit : ∀ m : Int, (toString n).toList = (toString m).toList ↔ n = m :=
    fun m => ⟨Text.toString_inj, fun heq => heq ▸ rfl⟩
  rw [textKey?_eq, plain_of_isFixed hfixed, map_toLower_of_isSigned hsigned,
    if_neg (hwords _ (by decide)), unquoted_of_head? (hquote _ (by simp)),
    unquoted_of_head? (hquote _ (by simp)), bareKey?_eq, map_toLower_of_isSigned hsigned,
    if_neg (c := _ = "null".toList ∨ _) (not_or.2 ⟨hnull, hletters _ (by decide)⟩),
    if_neg (c := _ ∈ timestampNames.map _ ∨ _) (not_or.2 ⟨hwords _ (by decide), hletters _ (by decide)⟩),
    String.ofList_toList, ofText?_toString_of_isInt64 h]
  exact if_congr (and_congr_right fun _ => hdigit 1) rfl (if_congr (and_congr_right fun _ => hdigit 0) rfl rfl)

/-- Whole numbers have one key if and only if they have one nearest 64-bit number. -/
theorem key?_integer_eq_iff (boolean : Bool) {a b : Int} (ha : IsInt64 a) (hb : IsInt64 b) :
    (integer a).key? boolean = (integer b).key? boolean ↔ ofInt a = ofInt b := by
  have hword : ∀ word ∈ ["true", "false"], ∀ n, word ≠ (ofInt n).toText := by
    intro word hword n heq
    have hread := ofText?_toText (isNaN_ofInt n)
    have hnone : ∀ word ∈ ["true", "false"], ofText? word = none := by decide +kernel
    rw [← heq, hnone word hword] at hread
    cases hread
  have htext : (ofInt a).toText = (ofInt b).toText ↔ ofInt a = ofInt b :=
    toText_inj (isNaN_ofInt a) (isNaN_ofInt b)
  rw [key?, key?, textKey?_toString boolean ha, textKey?_toString boolean hb]
  by_cases hsmall : boolean = true ∧ (a = 1 ∨ a = 0 ∨ b = 1 ∨ b = 0)
  · obtain ⟨rfl, hsmall⟩ := hsmall
    have hexact : ofInt a = ofInt b ↔ a = b := by
      rcases hsmall with rfl | rfl | rfl | rfl
      · exact ofInt_eq_ofInt_iff (by decide)
      · exact ofInt_eq_ofInt_iff (by decide)
      · rw [eq_comm, ofInt_eq_ofInt_iff (by decide), eq_comm]
      · rw [eq_comm, ofInt_eq_ofInt_iff (by decide), eq_comm]
    rw [hexact]
    refine ⟨fun hkey => ?_, fun heq => heq ▸ rfl⟩
    simp only [true_and] at hkey
    split_ifs at hkey
    all_goals first
      | omega
      | exact absurd (Option.some.inj hkey) (by decide)
      | exact absurd (Option.some.inj hkey) (hword _ (by simp) _)
      | exact absurd (Option.some.inj hkey).symm (hword _ (by simp) _)
  · rw [if_neg (by tauto), if_neg (by tauto), if_neg (by tauto), if_neg (by tauto), Option.some_inj, htext]

end ColumnDefault

namespace Column

/-- Whether nothing but the default can make a difference between two columns. -/
structure AlikeButDefault (old new : Column) : Prop where
  nullable : old.nullable = new.nullable
  isUnique : old.isUnique = new.isUnique
  isAutoIncrement : old.isAutoIncrement = new.isAutoIncrement
  type : old.type = new.type

variable {old new : Column}

theorem changes_eq_nil_iff_of_alikeButDefault (h : old.AlikeButDefault new) :
    changes old new = [] ↔ defaultsMatch old new = true := by
  have htype : typesMatch old new = true := by
    simp [typesMatch, h.type, ColumnType.isEquivalent_self]
  simp [changes_eq_nil_iff, h.nullable, h.isUnique, h.isAutoIncrement, htype]

theorem defaultsMatch_integer_iff (hplain : new.isAutoIncrement = false) {a b : Int} (ha : IsInt64 a)
    (hb : IsInt64 b) (hold : old.default? = some (.integer a)) (hnew : new.default? = some (.integer b)) :
    defaultsMatch old new = true ↔ Binary64.ofInt a = Binary64.ofInt b := by
  simp only [defaultsMatch, hplain, hold, hnew, Bool.false_and, Bool.false_or, Option.bind_some, beq_iff_eq]
  rw [ColumnDefault.key?_integer_eq_iff _ hb ha, eq_comm]

end Column

namespace Schema

/-- A column that is matched and differs only in its default, which is another whole number, is altered
exactly if the nearest 64-bit floating-point number is another one, too. -/
theorem alters_integer_default_iff {desired current : Schema} {o : DiffOptions} {t u : Table}
    (hmatched : (t, u) ∈ matchedTables desired current o) {old new : Column}
    (hnew : new ∈ t.columns.values)
    (hold : Column.rules.find? o.fold u.columns.values new.name = some old)
    (halike : old.AlikeButDefault new) (hplain : new.isAutoIncrement = false) {a b : Int}
    (ha : IsInt64 a) (hb : IsInt64 b) (holdDefault : old.default? = some (.integer a))
    (hnewDefault : new.default? = some (.integer b)) :
    Change.alter old new ∈ SchemaDiff.ofTable t.name (desired.diff current o).columns ↔
      Binary64.ofInt a ≠ Binary64.ofInt b := by
  have hchanges : Column.changes old new ≠ [] ↔ Binary64.ofInt a ≠ Binary64.ofInt b :=
    not_congr ((Column.changes_eq_nil_iff_of_alikeButDefault halike).trans
      (Column.defaultsMatch_integer_iff hplain ha hb holdDefault hnewDefault))
  rw [mem_ofTable_columns_iff, ← hchanges]
  constructor
  · rintro ⟨_, _, _, _, _, _, _, hdiffer⟩
    exact hdiffer
  · exact fun hdiffer => ⟨t, u, hmatched, rfl, hnew, rfl, hold, hdiffer⟩

/-- A column of great whole numbers. -/
private def startColumn (start : Int) : Column :=
  { name := "start", table := "counter", type := .integer .big, default? := some (.integer start) }

/-- A table with such a column. -/
private def counterTable (start : Int) : Table := Table.addColumn { name := "counter" } (startColumn start)

theorem alters_integer_default_zero_one :
    Change.alter (startColumn 0) (startColumn 1) ∈ SchemaDiff.ofTable "counter"
      ((addTable {} (counterTable 1)).diff (addTable {} (counterTable 0)) {}).columns := by
  have hiff : Change.alter (startColumn 0) (startColumn 1) ∈ SchemaDiff.ofTable (counterTable 1).name
      ((addTable {} (counterTable 1)).diff (addTable {} (counterTable 0)) {}).columns ↔
        Binary64.ofInt 0 ≠ Binary64.ofInt 1 := by
    apply alters_integer_default_iff (u := counterTable 0)
    case halike => exact ⟨rfl, rfl, rfl, rfl⟩
    all_goals decide +kernel
  exact hiff.2 (by decide +kernel)

/-- The successor of `2 ^ 53` is rounded to `2 ^ 53`. -/
theorem misses_successor_of_two_pow_53 :
    IsInt64 (2 ^ 53) ∧ IsInt64 (2 ^ 53 + 1) ∧ (2 ^ 53 : Int) ≠ 2 ^ 53 + 1 ∧
      ((addTable {} (counterTable (2 ^ 53 + 1))).diff (addTable {} (counterTable (2 ^ 53))) {}).isEmpty = true := by
  decide +kernel

end Schema

end EntitySql
