import EntitySql.Proofs.LetterCase
import EntitySql.Proofs.Lexing.Numeral
import EntitySql.Proofs.Schema.DefaultText
/-!
# The keys of bare texts

A text from which casts, parentheses and quotes are taken away has a key (`ColumnDefault.bareKey?`):
nothing, a word for a truth value or for the current time, a number in its shortest form, or the text
itself (`bareKey?_eq_or`). Every key but the last is a fixed text, and so is every text that is read as a
number. A text that is not fixed is therefore its own key, unless it is a call (`IsCall`), which has one
key whatever it is applied to.
-/

namespace EntitySql

namespace Text

theorem range_of_isDigit {c : Char} (h : isDigit c = true) : 48 ≤ c.toNat ∧ c.toNat ≤ 57 := by
  simp only [isDigit, Bool.and_eq_true, decide_eq_true_eq] at h
  exact ⟨UInt32.le_iff_toNat_le.1 h.1, UInt32.le_iff_toNat_le.1 h.2⟩

/-- No visible character of ASCII is blank. -/
theorem isBlank_of_toNat {c : Char} (hlow : 33 ≤ c.toNat) (hhigh : c.toNat ≤ 126) :
    isBlank c = false := by
  simp only [isBlank, Bool.or_eq_false_iff, Bool.and_eq_false_iff, decide_eq_false_iff_not,
    beq_eq_false_iff_ne]
  omega

end Text

namespace ColumnDefault

/-! ## Fixed characters -/

theorem isFixedChar_of_toNat {c : Char} (hlow : 33 ≤ c.toNat) (hhigh : c.toNat ≤ 126)
    (hcolon : c.toNat ≠ 58) (hquote : c.toNat ≠ 39) : isFixedChar c = true := by
  refine isFixedChar_iff.2 ⟨Text.isBlank_of_toNat hlow hhigh, ?_, ?_⟩
  · rintro rfl
    exact hcolon rfl
  · rintro rfl
    exact hquote rfl

theorem isFixedChar_of_toLower {c : Char} (h : isFixedChar c.toLower = true) :
    isFixedChar c = true := by
  rcases Text.toLower_eq_or c with hsame | ⟨hlow, hhigh, _⟩
  · exact hsame ▸ h
  · exact isFixedChar_of_toNat (by omega) (by omega) (by omega) (by omega)

theorem isFixedChar_of_isDigit {c : Char} (h : Text.isDigit c = true) : isFixedChar c = true := by
  obtain ⟨hlow, hhigh⟩ := Text.range_of_isDigit h
  exact isFixedChar_of_toNat (by omega) (by omega) (by omega) (by omega)

/-- The case of letters does not matter. -/
theorem isFixed_of_lowered {cs : List Char} (h : isFixed (cs.map Char.toLower) = true) :
    isFixed cs = true := by
  obtain ⟨hchars, hhead⟩ := isFixed_iff.1 h
  refine isFixed_iff.2 ⟨fun c hc => isFixedChar_of_toLower (hchars _ (List.mem_map.2 ⟨c, hc, rfl⟩)), ?_⟩
  intro hparenthesis
  rw [List.head?_map, hparenthesis] at hhead
  exact hhead rfl

/-! ## Numbers are fixed -/

/-- Whether the character is fixed wherever it stands. -/
def isNumberChar (c : Char) : Bool := isFixedChar c && c != '('

theorem isFixed_of_forall {cs : List Char} (h : ∀ c ∈ cs, isNumberChar c = true) :
    isFixed cs = true := by
  simp only [isNumberChar, Bool.and_eq_true, bne_iff_ne] at h
  exact isFixed_iff.2 ⟨fun c hc => (h c hc).1, fun hhead => (h '(' (List.mem_of_mem_head? hhead)).2 rfl⟩

theorem isNumberChar_of_isDigit {c : Char} (h : Text.isDigit c = true) : isNumberChar c = true := by
  rw [isNumberChar, isFixedChar_of_isDigit h, Bool.true_and, bne_iff_ne]
  rintro rfl
  exact absurd h (by decide)

theorem isNumberChar_of_toLower {c : Char} (h : isNumberChar c.toLower = true) :
    isNumberChar c = true := by
  simp only [isNumberChar, Bool.and_eq_true, bne_iff_ne] at h ⊢
  refine ⟨isFixedChar_of_toLower h.1, ?_⟩
  rintro rfl
  exact h.2 rfl

theorem isNumberChar_of_isSigned {cs : List Char} (h : Lexer.IsSigned cs) :
    ∀ c ∈ cs, isNumberChar c = true := by
  intro c hc
  rcases h.chars c hc with hnumeral | rfl
  · simp only [Lexer.isNumeralChar, Bool.or_eq_true, beq_iff_eq] at hnumeral
    rcases hnumeral with hdigit | rfl
    · exact isNumberChar_of_isDigit hdigit
    · decide
  · decide

theorem isFixed_toText (x : Binary64) : isFixed x.toText.toList = true := by
  by_cases hfinite : x.isFinite = true
  · exact isFixed_of_forall (isNumberChar_of_isSigned (Lexer.isSigned_toText hfinite))
  · unfold Binary64.toText Binary64.signed
    rw [if_neg hfinite]
    split
    · decide
    · rw [String.toList_ofList]
      split <;> decide

section Reading

open Binary64

variable {cs : List Char}

theorem isNumberChar_of_takeSign (h : ∀ c ∈ (takeSign cs).2, isNumberChar c = true) :
    ∀ c ∈ cs, isNumberChar c = true := by
  unfold takeSign at h
  split at h
  · exact List.forall_mem_cons.2 ⟨by decide, h⟩
  · exact List.forall_mem_cons.2 ⟨by decide, h⟩
  · exact h

theorem isNumberChar_of_nat? {n : Nat} (h : Text.nat? cs = some n) :
    ∀ c ∈ cs, isNumberChar c = true := by
  unfold Text.nat? at h
  split at h
  · cases h
  · rename_i hdigits
    simp only [Bool.or_eq_true, Bool.not_eq_true', not_or, Bool.not_eq_false, List.all_eq_true]
      at hdigits
    exact fun c hc => isNumberChar_of_isDigit (hdigits.2 c hc)

theorem isNumberChar_of_readExponent? {n : Int} (h : readExponent? cs = some n) :
    ∀ c ∈ cs, isNumberChar c = true := by
  unfold readExponent? at h
  split at h
  · nofun
  · split at h
    · rename_i c rest hmark
      obtain ⟨power, hpower, _⟩ := Option.map_eq_some_iff.1 h
      obtain ⟨digits, hdigits, _⟩ := Option.bind_eq_some_iff.1 hpower
      refine List.forall_mem_cons.2 ⟨?_, isNumberChar_of_takeSign (isNumberChar_of_nat? hdigits)⟩
      simp only [Bool.or_eq_true, decide_eq_true_eq] at hmark
      rcases hmark with rfl | rfl <;> decide
    · cases h

theorem isNumberChar_of_takeFraction (h : ∀ c ∈ (takeFraction cs).2, isNumberChar c = true) :
    ∀ c ∈ cs, isNumberChar c = true := by
  unfold takeFraction at h
  split at h
  · rename_i rest
    refine List.forall_mem_cons.2 ⟨by decide, ?_⟩
    rw [← List.takeWhile_append_dropWhile (p := Text.isDigit) (l := rest)]
    exact List.forall_mem_append.2
      ⟨fun c hc => isNumberChar_of_isDigit (List.mem_takeWhile_imp hc), h⟩
  · exact h

/-- What is read as a number is fixed. -/
theorem isFixed_of_ofText? {text : String} {x : Binary64} (h : ofText? text = some x) :
    isFixed text.toList = true := by
  refine isFixed_of_forall (isNumberChar_of_takeSign ?_)
  unfold ofText? at h
  dsimp only at h
  split at h
  · have hword : ∀ word : List Char, word.all isNumberChar = true →
        String.ofList ((takeSign text.toList).2.map Char.toLower) = String.ofList word →
          ∀ c ∈ (takeSign text.toList).2, isNumberChar c = true := by
      intro word hchars heq c hc
      have hlowered := String.ofList_injective heq
      exact isNumberChar_of_toLower
        (List.all_eq_true.1 hchars _ (hlowered ▸ List.mem_map.2 ⟨c, hc, rfl⟩))
    split at h
    · exact hword ['i', 'n', 'f'] (by decide) ‹_›
    · exact hword ['i', 'n', 'f', 'i', 'n', 'i', 't', 'y'] (by decide) ‹_›
    · exact hword ['n', 'a', 'n'] (by decide) ‹_›
    · cases h
  · obtain ⟨power, hpower, _⟩ := Option.map_eq_some_iff.1 h
    rw [← List.takeWhile_append_dropWhile (p := Text.isDigit) (l := (takeSign text.toList).2)]
    exact List.forall_mem_append.2
      ⟨fun c hc => isNumberChar_of_isDigit (List.mem_takeWhile_imp hc),
        isNumberChar_of_takeFraction (isNumberChar_of_readExponent? hpower)⟩

end Reading

/-! ## The keys of bare texts -/

/-- The calls that stand for no default or for the current time whatever they are applied to. -/
def calls : List (List Char) := ["nextval(".toList, "current_timestamp(".toList]

/-- Whether the text begins with such a call, in any case of letters. -/
def IsCall (cs : List Char) : Prop := ∃ call ∈ calls, call <+: cs.map Char.toLower

instance (cs : List Char) : Decidable (IsCall cs) :=
  inferInstanceAs (Decidable (∃ call ∈ calls, call <+: cs.map Char.toLower))

theorem bareKey?_eq (boolean : Bool) (cs : List Char) :
    bareKey? boolean cs =
      if boolean = true ∧ cs = ['1'] then some "true"
      else if boolean = true ∧ cs = ['0'] then some "false"
      else if cs.map Char.toLower = "null".toList ∨ "nextval(".toList <+: cs.map Char.toLower then none
      else if cs.map Char.toLower ∈ timestampNames.map String.toList ∨
          "current_timestamp(".toList <+: cs.map Char.toLower then some "current_timestamp"
      else
        match Binary64.ofText? (String.ofList cs) with
        | some x => some x.toText
        | none => some (String.ofList cs) := by
  have hone : String.ofList cs = "1" ↔ cs = ['1'] := ⟨String.ofList_injective, congrArg _⟩
  have hzero : String.ofList cs = "0" ↔ cs = ['0'] := ⟨String.ofList_injective, congrArg _⟩
  have hnames : timestampNames.contains (String.ofList (cs.map Char.toLower)) = true ↔
      cs.map Char.toLower ∈ timestampNames.map String.toList := by
    rw [List.contains_iff_mem, List.mem_map]
    exact ⟨fun h => ⟨_, h, String.toList_ofList⟩, fun ⟨name, h, hname⟩ => by
      rwa [← hname, String.ofList_toList]⟩
  unfold bareKey?
  refine if_congr ?_ rfl (if_congr ?_ rfl (if_congr ?_ rfl (if_congr ?_ rfl rfl)))
  · rw [Bool.and_eq_true, decide_eq_true_eq, hone]
  · rw [Bool.and_eq_true, decide_eq_true_eq, hzero]
  · rw [Bool.or_eq_true, decide_eq_true_eq, List.isPrefixOf_iff_prefix]
  · rw [Bool.or_eq_true, hnames, List.isPrefixOf_iff_prefix]

/-- A key is nothing, a fixed text or the text itself. -/
theorem bareKey?_eq_or (boolean : Bool) (cs : List Char) :
    bareKey? boolean cs = none ∨
      (∃ text, bareKey? boolean cs = some text ∧ isFixed text.toList = true) ∨
        bareKey? boolean cs = some (String.ofList cs) := by
  rw [bareKey?_eq]
  split
  · exact .inr (.inl ⟨_, rfl, by decide⟩)
  split
  · exact .inr (.inl ⟨_, rfl, by decide⟩)
  split
  · exact .inl rfl
  split
  · exact .inr (.inl ⟨_, rfl, by decide⟩)
  split
  · exact .inr (.inl ⟨_, rfl, isFixed_toText _⟩)
  · exact .inr (.inr rfl)

/-- A text that is neither fixed nor a call is its own key. -/
theorem bareKey?_of_not_isFixed {cs : List Char} (hfixed : isFixed cs = false) (hcall : ¬IsCall cs)
    (hnow : cs.map Char.toLower ≠ "datetime('now')".toList) (boolean : Bool) :
    bareKey? boolean cs = some (String.ofList cs) := by
  have hword : ∀ word : List Char, isFixed word = true → cs ≠ word := by
    rintro word hword rfl
    simp [hword] at hfixed
  have hlowered : ∀ word : List Char, isFixed word = true → cs.map Char.toLower ≠ word := by
    rintro word hword rfl
    simp [isFixed_of_lowered hword] at hfixed
  have hnames : cs.map Char.toLower ∉ timestampNames.map String.toList := by
    intro h
    have hfixed : ∀ name ∈ timestampNames, name.toList ≠ "datetime('now')".toList →
      isFixed name.toList = true := by decide
    obtain ⟨name, hname, heq⟩ := List.mem_map.1 h
    exact hlowered _ (hfixed name hname (heq ▸ hnow)) heq.symm
  have hcalls : ∀ call ∈ calls, ¬call <+: cs.map Char.toLower := fun call hmem h =>
    hcall ⟨call, hmem, h⟩
  rw [bareKey?_eq, if_neg fun h => hword _ (by decide) h.2, if_neg fun h => hword _ (by decide) h.2,
    if_neg (not_or.2 ⟨hlowered _ (by decide), hcalls _ (by simp [calls])⟩),
    if_neg (not_or.2 ⟨hnames, hcalls _ (by simp [calls])⟩)]
  split
  · rename_i x hx
    have hnumber := isFixed_of_ofText? hx
    rw [String.toList_ofList] at hnumber
    exact absurd rfl (hword cs hnumber)
  · rfl

/-- A call has one key, whatever it is applied to. -/
theorem bareKey?_of_call {call : List Char} (hcall : call ∈ calls) {as bs : List Char}
    (has : call <+: as.map Char.toLower) (hbs : call <+: bs.map Char.toLower) (boolean : Bool) :
    bareKey? boolean as = bareKey? boolean bs := by
  have hkey : ∀ {cs : List Char}, call <+: cs.map Char.toLower →
      bareKey? boolean cs = if call = "nextval(".toList then none else some "current_timestamp" := by
    rintro cs ⟨rest, hrest⟩
    have hdigit : ∀ digit ∈ ['1', '0'], cs ≠ [digit] := by
      rintro digit hdigit rfl
      simp only [calls, List.mem_cons, List.not_mem_nil, or_false] at hcall hdigit
      rcases hcall with rfl | rfl <;> rcases hdigit with rfl | rfl <;> cases hrest
    rw [bareKey?_eq, if_neg fun h => hdigit _ (by simp) h.2, if_neg fun h => hdigit _ (by simp) h.2,
      ← hrest]
    simp only [calls, List.mem_cons, List.not_mem_nil, or_false] at hcall
    rcases hcall with rfl | rfl
    · rw [if_pos (.inr (List.prefix_append _ _)), if_pos rfl]
    · have hnone : ¬("current_timestamp(".toList ++ rest = "null".toList ∨
          "nextval(".toList <+: "current_timestamp(".toList ++ rest) := by simp
      rw [if_neg hnone, if_pos (.inr (List.prefix_append _ _)), if_neg (by decide)]
  rw [hkey has, hkey hbs]

/-- The words for truth values are no numbers. -/
theorem ofText?_of_truth {cs : List Char}
    (h : cs.map Char.toLower = "true".toList ∨ cs.map Char.toLower = "false".toList) :
    Binary64.ofText? (String.ofList cs) = none := by
  obtain ⟨c, rest, rfl, hc⟩ : ∃ c rest, cs = c :: rest ∧ (c.toLower = 't' ∨ c.toLower = 'f') := by
    cases cs with
    | nil => rcases h with h | h <;> cases h
    | cons c rest =>
      exact ⟨c, rest, rfl, h.imp (fun h => (List.cons.inj h).1) fun h => (List.cons.inj h).1⟩
  have hother : ∀ x ∈ ['-', '+', '.'], c ≠ x := by
    rintro x hx rfl
    simp only [List.mem_cons, List.not_mem_nil, or_false] at hx
    rcases hx with rfl | rfl | rfl <;> revert hc <;> decide
  have hdigit : Text.isDigit c = false := by
    rw [← Bool.not_eq_true]
    intro hdigit
    have hrange := Text.range_of_isDigit hdigit
    have hsame : c.toLower = c := (Text.toLower_eq_or c).resolve_right (by omega)
    rcases hc with hc | hc <;> rw [← hsame, hc] at hdigit <;> revert hdigit <;> decide
  have hsign : Binary64.takeSign (c :: rest) = (false, c :: rest) := by
    unfold Binary64.takeSign
    split
    · exact absurd (List.cons.inj ‹c :: rest = '-' :: _›).1 (hother _ (by simp))
    · exact absurd (List.cons.inj ‹c :: rest = '+' :: _›).1 (hother _ (by simp))
    · rfl
  have hfraction : Binary64.takeFraction (c :: rest) = ([], c :: rest) := by
    unfold Binary64.takeFraction
    split
    · exact absurd (List.cons.inj ‹c :: rest = '.' :: _›).1 (hother _ (by simp))
    · rfl
  have hwhole : ((c :: rest).takeWhile Text.isDigit) = [] :=
    List.takeWhile_cons_of_neg (by simp [hdigit])
  have hbody : ((c :: rest).dropWhile Text.isDigit) = c :: rest :=
    List.dropWhile_cons_of_neg (by simp [hdigit])
  simp only [Binary64.ofText?, String.toList_ofList, hsign, hwhole, hbody, hfraction,
    List.isEmpty_nil, Bool.and_self, if_true]
  rcases h with h | h <;> rw [h] <;> rfl

/-- The words for truth values are their own keys when they have come through as they are. -/
theorem bareKey?_of_truth {cs : List Char}
    (h : cs.map Char.toLower = "true".toList ∨ cs.map Char.toLower = "false".toList)
    (boolean : Bool) : bareKey? boolean cs = some (String.ofList cs) := by
  have hdigit : ∀ digit ∈ ['1', '0'], cs ≠ [digit] := by
    rintro digit hdigit rfl
    simp only [List.mem_cons, List.not_mem_nil, or_false] at hdigit
    rcases hdigit with rfl | rfl <;> revert h <;> decide
  rw [bareKey?_eq, if_neg fun h => hdigit _ (by simp) h.2, if_neg fun h => hdigit _ (by simp) h.2,
    ofText?_of_truth h]
  rcases h with h | h <;> rw [h, if_neg (by decide), if_neg (by decide)]

end ColumnDefault

end EntitySql
