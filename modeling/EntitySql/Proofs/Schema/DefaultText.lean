import Mathlib.Data.List.TakeWhile
import EntitySql.Schema.Diff.DefaultKey
/-!
# What is taken away from the text of a default

Before a default is compared, blanks, casts and one pair of parentheses are taken away from its text
(`ColumnDefault.plain`), and later one pair of quotes. Most texts lose nothing: neither those that end in
a quote, since no cast does, nor those without blanks and colons that do not begin with a parenthesis
(`ColumnDefault.isFixed`). Such characters at the front stay whatever follows them.
-/

namespace EntitySql

namespace Text

theorem dropWhile_eq_self {p : Char → Bool} {cs : List Char} (h : ∀ c ∈ cs.head?, p c = false) :
    cs.dropWhile p = cs := by
  cases cs with
  | nil => rfl
  | cons c rest => exact List.dropWhile_cons_of_neg (by simp [h c rfl])

theorem trim_eq_self {cs : List Char} (hhead : ∀ c ∈ cs.head?, isBlank c = false)
    (hlast : ∀ c ∈ cs.getLast?, isBlank c = false) : trim cs = cs := by
  rw [trim, dropWhile_eq_self hhead, dropWhile_eq_self, List.reverse_reverse]
  rwa [List.head?_reverse]

theorem trim_sublist (cs : List Char) : (trim cs).Sublist cs := by
  have hback := ((List.dropWhile_sublist isBlank (l := (cs.dropWhile isBlank).reverse))).reverse
  rw [List.reverse_reverse] at hback
  exact hback.trans (List.dropWhile_sublist isBlank)

/-- Characters at the front that are not blank stay there. -/
theorem prefix_trim {front cs : List Char} (hfront : ∀ c ∈ front, isBlank c = false)
    (h : front <+: cs) : front <+: trim cs := by
  obtain ⟨rest, rfl⟩ := h
  have hstart : (front ++ rest).dropWhile isBlank = front ++ rest ∨ front = [] := by
    cases front with
    | nil => exact .inr rfl
    | cons c front => exact .inl (dropWhile_eq_self fun x hx => hfront x (by simp_all))
  rcases hstart with hstart | rfl
  · have hend : front.reverse.dropWhile isBlank = front.reverse :=
      dropWhile_eq_self fun c hc => hfront c (List.mem_reverse.1 (List.mem_of_mem_head? hc))
    rw [trim, hstart, List.reverse_append, List.dropWhile_append, hend]
    split
    · simp
    · simp
  · exact List.nil_prefix

end Text

namespace ColumnDefault

/-! ## Casts -/

/-- Whether the character may stand at the end of the name of a type. -/
def isCastEnd (c : Char) : Bool := isCastChar c || c == ']' || c == ')'

theorem getLast?_of_isCastNumbers {cs : List Char} (h : isCastNumbers cs = true) :
    cs = [] ∨ cs.getLast? = some ')' := by
  unfold isCastNumbers at h
  split at h
  · exact .inl rfl
  · rename_i inside
    split at h
    · rename_i hrest
      right
      rw [← List.takeWhile_append_dropWhile (l := inside), hrest, ← List.cons_append,
        List.getLast?_concat]
    · cases h
  · cases h

theorem getLast?_of_isCastType {cs : List Char} (h : isCastType cs = true) :
    ∃ c, cs.getLast? = some c ∧ isCastEnd c = true := by
  rw [isCastType, Bool.and_eq_true] at h
  obtain ⟨hhead, hrest⟩ := h
  have hsplit := List.takeWhile_append_dropWhile (p := isCastChar) (l := cs)
  have hend : ∀ front numbers : List Char, isCastNumbers numbers = true → front ++ numbers = cs →
      (∃ c, front.getLast? = some c ∧ isCastEnd c = true) →
        ∃ c, cs.getLast? = some c ∧ isCastEnd c = true := by
    rintro front numbers hnumbers rfl hfront
    rcases getLast?_of_isCastNumbers hnumbers with rfl | hlast
    · simpa using hfront
    · exact ⟨')', by rw [List.getLast?_append, hlast, Option.some_or], by decide⟩
  split at hrest
  · rename_i rest hdrop
    rw [hdrop] at hsplit
    exact hend (cs.takeWhile isCastChar ++ ['[', ']']) rest hrest (by simpa using hsplit)
      ⟨']', by simp, by decide⟩
  · refine hend _ _ hrest hsplit ?_
    obtain ⟨c, hc⟩ : ∃ c, (cs.takeWhile isCastChar).getLast? = some c := by
      cases cs with
      | nil => cases hhead
      | cons c rest =>
        have hstart : isCastChar c = true := by
          simp only [List.head?_cons, Option.any_some] at hhead
          simp [isCastChar, hhead]
        rw [List.takeWhile_cons_of_pos hstart]
        exact ⟨_, List.getLast?_eq_some_getLast (List.cons_ne_nil _ _)⟩
    have hchar : isCastChar c = true := List.mem_takeWhile_imp (List.mem_of_getLast? hc)
    exact ⟨c, hc, by simp [isCastEnd, hchar]⟩

/-- A cast consists of two colons and a type behind what is cast. -/
theorem exists_of_dropCast? {cs rest : List Char} (h : dropCast? cs = some rest) :
    ∃ before type, cs = before ++ ':' :: ':' :: type ∧ isCastType type = true ∧
      rest = Text.trim before := by
  have hsplit := List.takeWhile_append_dropWhile (p := (· != ':')) (l := cs.reverse)
  unfold dropCast? at h
  dsimp only at h
  split at h
  · rename_i before hdrop
    split at h
    · cases h
      refine ⟨before.reverse, _, ?_, ‹_›, rfl⟩
      rw [hdrop] at hsplit
      simpa using (congrArg List.reverse hsplit).symm
    · cases h
  · cases h

theorem dropCast?_of_getLast? {cs : List Char} {c : Char} (hlast : cs.getLast? = some c)
    (hc : isCastEnd c = false) : dropCast? cs = none := by
  refine Option.eq_none_iff_forall_ne_some.2 fun rest h => ?_
  obtain ⟨before, type, rfl, htype, _⟩ := exists_of_dropCast? h
  obtain ⟨other, hother, hend⟩ := getLast?_of_isCastType htype
  have hsame : other = c := by
    rw [show before ++ ':' :: ':' :: type = (before ++ [':', ':']) ++ type by simp,
      List.getLast?_append, hother] at hlast
    exact Option.some.inj hlast
  rw [hsame, hc] at hend
  cases hend

theorem dropCast?_of_notMem {cs : List Char} (h : ':' ∉ cs) : dropCast? cs = none := by
  refine Option.eq_none_iff_forall_ne_some.2 fun rest hrest => ?_
  obtain ⟨before, type, rfl, _⟩ := exists_of_dropCast? hrest
  simp at h

theorem dropCasts_eq_self {cs : List Char} (h : dropCast? cs = none) (fuel : Nat) :
    dropCasts fuel cs = cs := by
  cases fuel with
  | zero => rfl
  | succ fuel => rw [dropCasts, h]

theorem dropCasts_sublist (fuel : Nat) (cs : List Char) : (dropCasts fuel cs).Sublist cs := by
  induction fuel generalizing cs with
  | zero => exact List.Sublist.refl cs
  | succ fuel ih =>
    rw [dropCasts]
    split
    · rename_i rest h
      obtain ⟨before, type, rfl, _, rfl⟩ := exists_of_dropCast? h
      exact (ih _).trans ((Text.trim_sublist before).trans (List.sublist_append_left _ _))
    · exact List.Sublist.refl cs

/-- Characters at the front stay if they are neither blanks nor colons. -/
theorem prefix_dropCasts {front : List Char}
    (hfront : ∀ c ∈ front, Text.isBlank c = false ∧ c ≠ ':') (fuel : Nat) {cs : List Char}
    (h : front <+: cs) : front <+: dropCasts fuel cs := by
  induction fuel generalizing cs with
  | zero => exact h
  | succ fuel ih =>
    rw [dropCasts]
    split
    · rename_i rest hcast
      obtain ⟨before, type, rfl, _, rfl⟩ := exists_of_dropCast? hcast
      refine ih (Text.prefix_trim (fun c hc => (hfront c hc).1) ?_)
      -- A front that reaches into the cast holds its first colon.
      have hcolon : before ++ [':'] <+: before ++ ':' :: ':' :: type := ⟨':' :: type, by simp⟩
      have hreach : ¬before ++ [':'] <+: front := fun hreach =>
        (hfront ':' (hreach.subset (by simp))).2 rfl
      rcases List.prefix_or_prefix_of_prefix h hcolon with hfront' | hfront'
      · exact (List.prefix_concat_iff.1 hfront').resolve_left fun heq => hreach ⟨[], by simp [heq]⟩
      · exact absurd hfront' hreach
    · exact h

/-! ## Parentheses and quotes -/

theorem between_eq_some_iff {first last : Char} {cs inside : List Char} :
    between first last cs = some inside ↔ cs = first :: inside ++ [last] := by
  cases cs with
  | nil => simp [between]
  | cons c rest =>
    rw [between]
    constructor
    · intro h
      split at h
      · rename_i hends
        cases h
        simp only [Bool.and_eq_true, decide_eq_true_eq] at hends
        obtain ⟨inside, rfl⟩ := List.getLast?_eq_some_iff.1 hends.2
        rw [hends.1, List.dropLast_concat, List.cons_append]
      · cases h
    · intro h
      obtain ⟨rfl, rfl⟩ := List.cons.inj h
      simp

theorem unquoted_eq_or (quote : Char) (cs : List Char) :
    unquoted quote cs = cs ∨ cs = quote :: unquoted quote cs ++ [quote] := by
  unfold unquoted
  cases h : between quote quote cs with
  | none => exact .inl rfl
  | some inside => exact .inr (between_eq_some_iff.1 h)

theorem unquoted_quoted (quote : Char) (cs : List Char) :
    unquoted quote (quote :: cs ++ [quote]) = cs := by
  rw [unquoted, between_eq_some_iff.2 rfl, Option.getD_some]

theorem unquoted_of_head? {quote : Char} {cs : List Char} (h : cs.head? ≠ some quote) :
    unquoted quote cs = cs := by
  rcases unquoted_eq_or quote cs with hsame | hquoted
  · exact hsame
  · rw [hquoted] at h
    exact absurd rfl h

theorem unquoted_sublist (quote : Char) (cs : List Char) : (unquoted quote cs).Sublist cs := by
  unfold unquoted
  cases h : between quote quote cs with
  | none => exact List.Sublist.refl cs
  | some inside =>
    rw [between_eq_some_iff.1 h]
    exact (List.sublist_cons_self _ _).trans (List.sublist_append_left _ _)

theorem unwrapped_of_head? {cs : List Char} (h : cs.head? ≠ some '(') : unwrapped cs = cs := by
  have hnone : between '(' ')' cs = none := by
    refine Option.eq_none_iff_forall_ne_some.2 fun inside hinside => ?_
    rw [between_eq_some_iff.1 hinside] at h
    exact h rfl
  rw [unwrapped, hnone, Option.map_none, Option.getD_none]

theorem unwrapped_sublist (cs : List Char) : (unwrapped cs).Sublist cs := by
  unfold unwrapped
  cases h : between '(' ')' cs with
  | none => exact List.Sublist.refl cs
  | some inside =>
    rw [between_eq_some_iff.1 h]
    exact (Text.trim_sublist inside).trans ((List.sublist_cons_self _ _).trans
      (List.sublist_append_left _ _))

/-! ## What is left -/

/-- What is left of a text without blanks at its ends, casts, and one pair of parentheses. -/
def plain (cs : List Char) : List Char :=
  unwrapped (dropCasts (Text.trim cs).length (Text.trim cs))

/-- Whether the character is neither a blank nor a colon nor a single quote. -/
def isFixedChar (c : Char) : Bool := !Text.isBlank c && c != ':' && c != '\''

/-- Whether the text consists of such characters and has no parenthesis in front. -/
def isFixed (cs : List Char) : Bool := cs.all isFixedChar && cs.head? != some '('

theorem plain_sublist (cs : List Char) : (plain cs).Sublist cs :=
  (unwrapped_sublist _).trans ((dropCasts_sublist _ _).trans (Text.trim_sublist cs))

theorem isFixedChar_iff {c : Char} :
    isFixedChar c = true ↔ Text.isBlank c = false ∧ c ≠ ':' ∧ c ≠ '\'' := by
  simp [isFixedChar, and_assoc]

theorem isFixed_iff {cs : List Char} :
    isFixed cs = true ↔ (∀ c ∈ cs, isFixedChar c = true) ∧ cs.head? ≠ some '(' := by
  simp [isFixed]

theorem plain_of_isFixed {cs : List Char} (h : isFixed cs = true) : plain cs = cs := by
  obtain ⟨hfixed, hhead⟩ := isFixed_iff.1 h
  have hchars := fun c hc => isFixedChar_iff.1 (hfixed c hc)
  have htrim : Text.trim cs = cs := Text.trim_eq_self
    (fun c hc => (hchars c (List.mem_of_mem_head? hc)).1)
    fun c hc => (hchars c (List.mem_of_getLast? hc)).1
  have hcast : dropCast? cs = none := dropCast?_of_notMem fun hcolon => (hchars ':' hcolon).2.1 rfl
  rw [plain, htrim, dropCasts_eq_self hcast, unwrapped_of_head? hhead]

/-- Nothing is taken away around a quotation, since no type ends in a quote. -/
theorem plain_quoted {quote : Char} (hquote : quote = '\'' ∨ quote = '"') (cs : List Char) :
    plain (quote :: cs ++ [quote]) = quote :: cs ++ [quote] := by
  have hchar : Text.isBlank quote = false ∧ isCastEnd quote = false ∧ quote ≠ '(' := by
    rcases hquote with rfl | rfl <;> decide
  have hlast : (quote :: cs ++ [quote]).getLast? = some quote := List.getLast?_concat
  have htrim : Text.trim (quote :: cs ++ [quote]) = quote :: cs ++ [quote] := by
    refine Text.trim_eq_self (by simp [hchar.1]) fun c hc => ?_
    obtain rfl : quote = c := Option.some.inj (hlast.symm.trans hc)
    exact hchar.1
  rw [plain, htrim, dropCasts_eq_self (dropCast?_of_getLast? hlast hchar.2.1),
    unwrapped_of_head? (by simp [hchar.2.2])]

theorem prefix_plain {front cs : List Char} (hfront : isFixed front = true) (hne : front ≠ [])
    (h : front <+: cs) : front <+: plain cs := by
  obtain ⟨hfixed, hhead⟩ := isFixed_iff.1 hfront
  have hchars := fun c hc => isFixedChar_iff.1 (hfixed c hc)
  have hcasts := prefix_dropCasts (fun c hc => ⟨(hchars c hc).1, (hchars c hc).2.1⟩)
    (Text.trim cs).length (Text.prefix_trim (fun c hc => (hchars c hc).1) h)
  rw [plain, unwrapped_of_head?]
  · exact hcasts
  · obtain ⟨rest, hrest⟩ := hcasts
    rw [← hrest]
    cases front with
    | nil => exact absurd rfl hne
    | cons c front => exact hhead

end ColumnDefault

end EntitySql
