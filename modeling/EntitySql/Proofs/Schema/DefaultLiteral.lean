import EntitySql.Proofs.Schema.DefaultKey
/-!
# Defaults that a database reports as they were written

A database that reports a default as it was written gives back the text that `ColumnDefault.toText`
makes of it. That text has the key of the default for everything but strings
(`ColumnDefault.key?_toText_iff`). The text of a string is a literal. Its quotes go, but those that are
doubled inside stay doubled, and nothing else is taken away from it, while the string itself is read as
if it were the text of a database. So the two keys are the same for strings that hold no single quote and
lose nothing (`IsBare`), and for calls, whose arguments do not matter.
-/

namespace EntitySql.ColumnDefault

/-! ## Doubled quotes -/

section Doubled

open Dialect

theorem toLower_eq_quote_iff {c : Char} : c.toLower = '\'' ↔ c = '\'' := by
  constructor
  · intro h
    rcases Text.toLower_eq_or c with hsame | ⟨hlow, _, hplaces⟩
    · exact hsame ▸ h
    · have hplace : c.toLower.toNat = 39 := congrArg Char.toNat h
      omega
  · rintro rfl
    rfl

theorem map_toLower_doubled (cs : List Char) :
    (doubled '\'' cs).map Char.toLower = doubled '\'' (cs.map Char.toLower) := by
  induction cs with
  | nil => rfl
  | cons c rest ih =>
    by_cases hc : c = '\''
    · subst hc
      rw [doubled_cons_self]
      simp only [List.map_cons, ih]
      exact (doubled_cons_self _ _).symm
    · rw [doubled_cons_of_ne hc, List.map_cons, List.map_cons, ih,
        doubled_cons_of_ne (mt toLower_eq_quote_iff.1 hc)]

theorem count_doubled (c : Char) (cs : List Char) : (doubled c cs).count c = 2 * cs.count c := by
  induction cs with
  | nil => rfl
  | cons x rest ih =>
    by_cases hx : x = c
    · subst hx
      rw [doubled_cons_self, List.count_cons_self, List.count_cons_self, List.count_cons_self, ih]
      omega
    · rw [doubled_cons_of_ne hx, List.count_cons_of_ne hx, List.count_cons_of_ne hx, ih]

theorem getLast?_doubled (c : Char) (cs : List Char) : (doubled c cs).getLast? = cs.getLast? := by
  rcases List.eq_nil_or_concat cs with rfl | ⟨front, x, rfl⟩
  · rfl
  · by_cases hx : x = c <;> simp [doubled, hx]

theorem prefix_doubled_iff {c : Char} {front cs : List Char} (h : c ∉ front) :
    front <+: doubled c cs ↔ front <+: cs := by
  induction cs generalizing front with
  | nil => rfl
  | cons x rest ih =>
    cases front with
    | nil => simp
    | cons y front =>
      rw [List.mem_cons, not_or] at h
      by_cases hx : x = c
      · subst hx
        rw [doubled_cons_self, List.cons_prefix_cons, List.cons_prefix_cons]
        exact iff_of_false (fun hy => h.1 hy.1.symm) fun hy => h.1 hy.1.symm
      · rw [doubled_cons_of_ne hx, List.cons_prefix_cons, List.cons_prefix_cons, ih h.2]

/-- The first mark is followed by another one. -/
theorem dropWhile_doubled (c : Char) (cs : List Char) :
    (doubled c cs).dropWhile (· != c) = [] ∨
      ∃ rest, (doubled c cs).dropWhile (· != c) = c :: c :: rest := by
  induction cs with
  | nil => exact .inl rfl
  | cons x rest ih =>
    by_cases hx : x = c
    · subst hx
      rw [doubled_cons_self]
      exact .inr ⟨_, List.dropWhile_cons_of_neg (by simp)⟩
    · rw [doubled_cons_of_ne hx, List.dropWhile_cons_of_pos (by simpa using hx)]
      exact ih

theorem doubled_ne_now (cs : List Char) : doubled '\'' cs ≠ "datetime('now')".toList := by
  intro h
  have hmarks := dropWhile_doubled '\'' cs
  rw [h] at hmarks
  rcases hmarks with hmarks | ⟨rest, hmarks⟩ <;> exact absurd hmarks (by simp)

/-- Quotes of one kind go whether those of the other kind are doubled or not. -/
theorem unquoted_doubled (cs : List Char) :
    unquoted '"' (doubled '\'' cs) = doubled '\'' (unquoted '"' cs) := by
  have hquoted : ∀ inside,
      doubled '\'' ('"' :: inside ++ ['"']) = '"' :: doubled '\'' inside ++ ['"'] := by
    intro inside
    simp [doubled]
  cases h : between '"' '"' cs with
  | some inside =>
    rw [between_eq_some_iff.1 h, hquoted, unquoted_quoted, unquoted_quoted]
  | none =>
    have hnone : between '"' '"' (doubled '\'' cs) = none := by
      refine Option.eq_none_iff_forall_ne_some.2 fun inside hinside => ?_
      have heq := between_eq_some_iff.1 hinside
      cases cs with
      | nil => cases heq
      | cons c rest =>
        have hc : c = '"' := by
          by_cases hc : c = '\''
          · subst hc
            rw [doubled_cons_self] at heq
            cases heq
          · rw [doubled_cons_of_ne hc] at heq
            exact (List.cons.inj heq).1
        subst hc
        rw [doubled_cons_of_ne (by decide)] at heq
        have hlast : rest.getLast? = some '"' := by
          rw [← getLast?_doubled '\'', (List.cons.inj heq).2]
          exact List.getLast?_concat
        obtain ⟨inside, rfl⟩ := List.getLast?_eq_some_iff.1 hlast
        cases (between_eq_some_iff.2 rfl).symm.trans h
    rw [unquoted, unquoted, hnone, h, Option.getD_none, Option.getD_none]

end Doubled

/-! ## Defaults as they are written -/

theorem textKey?_eq (boolean : Bool) (text : String) :
    textKey? boolean text =
      if (plain text.toList).map Char.toLower ∈ ["true".toList, "false".toList] then
        some (String.ofList ((plain text.toList).map Char.toLower))
      else bareKey? boolean (unquoted '"' (unquoted '\'' (plain text.toList))) := by
  unfold textKey?
  dsimp only
  rw [← plain]
  generalize hlowered : (plain text.toList).map Char.toLower = lowered
  split
  · rename_i htrue
    obtain rfl : lowered = "true".toList :=
      String.ofList_injective (htrue.trans String.ofList_toList.symm)
    rfl
  · rename_i hfalse
    obtain rfl : lowered = "false".toList :=
      String.ofList_injective (hfalse.trans String.ofList_toList.symm)
    rfl
  · rename_i htrue hfalse
    rw [if_neg]
    intro hword
    simp only [List.mem_cons, List.not_mem_nil, or_false] at hword
    rcases hword with rfl | rfl
    · exact htrue rfl
    · exact hfalse rfl

/-- The text of a string is a literal, of which the quotes around it go and those inside stay doubled. -/
theorem key?_literal (boolean : Bool) (s : String) :
    (expression (string s).toText).key? boolean =
      bareKey? boolean (Dialect.doubled '\'' (unquoted '"' s.toList)) := by
  have htext : (string s).toText.toList = '\'' :: Dialect.doubled '\'' s.toList ++ ['\''] := by
    simp [toText, toSql, Dialect.render, Dialect.renderPiece, Dialect.standardLiteral]
  have hplain : plain (string s).toText.toList = (string s).toText.toList := by
    rw [htext]
    exact plain_quoted (.inl rfl) _
  have hword : (string s).toText.toList.map Char.toLower ∉ ["true".toList, "false".toList] := by
    rw [htext]
    simp
  rw [key?, textKey?_eq, hplain, if_neg hword, htext, unquoted_quoted, unquoted_doubled]

/-- Whether a text is read as it stands: nothing is taken away in front of its double quotes, it holds no
single quote, and it spells no truth value with capitals. -/
structure IsBare (cs : List Char) : Prop where
  quote : '\'' ∉ cs
  plain : plain cs = cs
  truth : cs.map Char.toLower ∈ ["true".toList, "false".toList] → cs.map Char.toLower = cs

instance (cs : List Char) : Decidable (IsBare cs) :=
  decidable_of_iff
    ('\'' ∉ cs ∧ ColumnDefault.plain cs = cs ∧
      (cs.map Char.toLower ∈ ["true".toList, "false".toList] → cs.map Char.toLower = cs))
    ⟨fun ⟨quote, plain, truth⟩ => { quote, plain, truth }, fun h => ⟨h.quote, h.plain, h.truth⟩⟩

variable {s : String} {boolean : Bool}

theorem key?_literal_of_isBare (h : IsBare s.toList) :
    (expression (string s).toText).key? boolean = (string s).key? boolean := by
  have hquote : '\'' ∉ unquoted '"' s.toList := fun hmem => h.quote ((unquoted_sublist _ _).mem hmem)
  rw [key?_literal, Dialect.doubled_of_notMem hquote, key?, textKey?_eq, h.plain]
  split
  · rename_i htruth
    have hword := htruth
    rw [h.truth htruth] at hword
    have hsame : unquoted '"' s.toList = s.toList := by
      simp only [List.mem_cons, List.not_mem_nil, or_false] at hword
      rcases hword with hword | hword <;> rw [hword] <;> rfl
    rw [hsame, h.truth htruth]
    exact bareKey?_of_truth (by simpa using htruth) boolean
  · rw [unquoted_of_head? fun hhead => h.quote (List.mem_of_mem_head? hhead)]

theorem not_mem_of_call {call cs : List Char} (hcall : call ∈ calls)
    (h : call <+: cs.map Char.toLower) :
    cs.head? ≠ some '\'' ∧ cs.head? ≠ some '"' ∧
      cs.map Char.toLower ∉ ["true".toList, "false".toList] := by
  obtain ⟨rest, hrest⟩ := h
  have hhead : ∀ c, cs.head? = some c → (call ++ rest).head? = some c.toLower := fun c hc => by
    rw [hrest, List.head?_map, hc, Option.map_some]
  simp only [calls, List.mem_cons, List.not_mem_nil, or_false] at hcall
  refine ⟨fun hc => ?_, fun hc => ?_, fun hc => ?_⟩
  · rcases hcall with rfl | rfl <;> exact absurd (hhead _ hc) (by simp)
  · rcases hcall with rfl | rfl <;> exact absurd (hhead _ hc) (by simp)
  · rw [← hrest] at hc
    rcases hcall with rfl | rfl <;> simp at hc

theorem prefix_plain_of_call {call cs : List Char} (hcall : call ∈ calls)
    (h : call <+: cs.map Char.toLower) : call <+: (plain cs).map Char.toLower := by
  have hfront : (cs.take call.length).map Char.toLower = call := by
    rw [List.map_take]
    exact (List.prefix_iff_eq_take.1 h).symm
  have hcalls : ∀ call ∈ calls, isFixed call = true ∧ call ≠ [] := by decide
  obtain ⟨hfixed, hne⟩ := hcalls call hcall
  rw [← hfront] at hfixed
  have hkept := prefix_plain (isFixed_of_lowered hfixed)
    (fun hnil => hne (by rw [← hfront, hnil, List.map_nil])) (List.take_prefix call.length cs)
  exact hfront ▸ hkept.map Char.toLower

theorem key?_literal_of_isCall (h : IsCall (unquoted '"' s.toList)) :
    (expression (string s).toText).key? boolean = (string s).key? boolean := by
  obtain ⟨call, hcall, hprefix⟩ := h
  have hquote : ∀ call ∈ calls, '\'' ∉ call := by decide
  have hdoubled : call <+: (Dialect.doubled '\'' (unquoted '"' s.toList)).map Char.toLower := by
    rw [map_toLower_doubled, prefix_doubled_iff (hquote call hcall)]
    exact hprefix
  rw [key?_literal, key?, textKey?_eq]
  cases hquoted : between '"' '"' s.toList with
  | some inside =>
    have hs := between_eq_some_iff.1 hquoted
    have hplain : plain s.toList = s.toList := by
      rw [hs]
      exact plain_quoted (.inr rfl) inside
    have hword : s.toList.map Char.toLower ∉ ["true".toList, "false".toList] := by
      rw [hs]
      simp
    have hsingle : unquoted '\'' s.toList = s.toList := unquoted_of_head? (by rw [hs]; simp)
    rw [hplain, if_neg hword, hsingle]
    exact bareKey?_of_call hcall hdoubled hprefix boolean
  | none =>
    have hsame : unquoted '"' s.toList = s.toList := by rw [unquoted, hquoted, Option.getD_none]
    have hkept := prefix_plain_of_call hcall (hsame ▸ hprefix)
    obtain ⟨hsingle, hdouble, hword⟩ := not_mem_of_call hcall hkept
    rw [if_neg hword, unquoted_of_head? hsingle, unquoted_of_head? hdouble]
    exact bareKey?_of_call hcall hdoubled hkept boolean

/-- The key of a text is nothing, a fixed text or what is left of the text. -/
theorem textKey?_eq_or (boolean : Bool) (text : String) :
    textKey? boolean text = none ∨
      (∃ key, textKey? boolean text = some key ∧ isFixed key.toList = true) ∨
        textKey? boolean text =
          some (String.ofList (unquoted '"' (unquoted '\'' (plain text.toList)))) := by
  rw [textKey?_eq]
  split
  · rename_i hword
    have hwords : ∀ word ∈ ["true".toList, "false".toList], isFixed word = true := by decide
    exact .inr (.inl ⟨_, rfl, by rw [String.toList_ofList]; exact hwords _ hword⟩)
  · exact bareKey?_eq_or boolean _

theorem textKey?_ne {cs : List Char} (hfixed : isFixed cs = false)
    (hleft : unquoted '"' (unquoted '\'' (plain s.toList)) ≠ cs) :
    some (String.ofList cs) ≠ textKey? boolean s := by
  rcases textKey?_eq_or boolean s with h | ⟨key, h, hkey⟩ | h <;> rw [h]
  · nofun
  · intro hsame
    rw [← Option.some.inj hsame, String.toList_ofList, hfixed] at hkey
    cases hkey
  · exact fun hsame => hleft (String.ofList_injective (Option.some.inj hsame)).symm

theorem count_unquoted (cs : List Char) : (unquoted '"' cs).count '\'' = cs.count '\'' := by
  rcases unquoted_eq_or '"' cs with h | h
  · rw [h]
  · exact ((congrArg (List.count '\'') h).trans (by simp)).symm

/-- A string with a single quote has it twice in its literal. -/
theorem key?_literal_ne_of_mem (hquote : '\'' ∈ s.toList)
    (hcall : ¬IsCall (unquoted '"' s.toList)) :
    (expression (string s).toText).key? boolean ≠ (string s).key? boolean := by
  have hcount : (Dialect.doubled '\'' (unquoted '"' s.toList)).count '\'' =
      2 * s.toList.count '\'' := by rw [count_doubled, count_unquoted]
  have hpositive : 0 < s.toList.count '\'' := List.count_pos_iff.2 hquote
  have hfixed : isFixed (Dialect.doubled '\'' (unquoted '"' s.toList)) = false := by
    rw [← Bool.not_eq_true, isFixed_iff]
    rintro ⟨hchars, _⟩
    have hmem : '\'' ∈ Dialect.doubled '\'' (unquoted '"' s.toList) :=
      List.count_pos_iff.1 (by omega)
    exact absurd (hchars _ hmem) (by decide)
  have hquotes : ∀ call ∈ calls, '\'' ∉ call := by decide
  rw [key?_literal, bareKey?_of_not_isFixed hfixed ?_ ?_, key?]
  · refine textKey?_ne hfixed fun hsame => ?_
    have hless := ((unquoted_sublist '"' _).trans ((unquoted_sublist '\'' _).trans
      (plain_sublist s.toList))).count_le '\''
    rw [hsame] at hless
    omega
  · rintro ⟨call, hmem, hprefix⟩
    rw [map_toLower_doubled, prefix_doubled_iff (hquotes call hmem)] at hprefix
    exact hcall ⟨call, hmem, hprefix⟩
  · rw [map_toLower_doubled]
    exact doubled_ne_now _

/-- A string from which something is taken away keeps that in its literal. -/
theorem key?_literal_ne_of_plain (hquote : '\'' ∉ s.toList) (hplain : plain s.toList ≠ s.toList)
    (hcall : ¬IsCall (unquoted '"' s.toList)) :
    (expression (string s).toText).key? boolean ≠ (string s).key? boolean := by
  have hsame : unquoted '"' s.toList = s.toList := by
    refine (unquoted_eq_or _ _).resolve_right fun h => hplain ?_
    rw [h]
    exact plain_quoted (.inr rfl) _
  have hfixed : isFixed s.toList = false := by
    rw [← Bool.not_eq_true]
    exact fun h => hplain (plain_of_isFixed h)
  rw [hsame] at hcall
  have hnow : s.toList.map Char.toLower ≠ "datetime('now')".toList := by
    intro h
    have hmem : '\'' ∈ s.toList.map Char.toLower := by
      rw [h]
      decide
    obtain ⟨c, hc, hlower⟩ := List.mem_map.1 hmem
    exact hquote (toLower_eq_quote_iff.1 hlower ▸ hc)
  rw [key?_literal, hsame, Dialect.doubled_of_notMem hquote, bareKey?_of_not_isFixed hfixed hcall hnow,
    key?]
  refine textKey?_ne hfixed fun hleft => hplain ?_
  refine (plain_sublist s.toList).eq_of_length_le ?_
  have hshort := ((unquoted_sublist '"' _).trans (unquoted_sublist '\'' (plain s.toList))).length_le
  rwa [hleft] at hshort

/-- A truth value with capitals keeps them in its literal. -/
theorem key?_literal_ne_of_truth (hquote : '\'' ∉ s.toList) (hplain : plain s.toList = s.toList)
    (htruth : s.toList.map Char.toLower ∈ ["true".toList, "false".toList])
    (hcase : s.toList.map Char.toLower ≠ s.toList) :
    (expression (string s).toText).key? boolean ≠ (string s).key? boolean := by
  have hhead : s.toList.head? ≠ some '"' := by
    intro hhead
    have hlower : (s.toList.map Char.toLower).head? = some '"' := by rw [List.head?_map, hhead]; rfl
    simp only [List.mem_cons, List.not_mem_nil, or_false] at htruth
    rcases htruth with h | h <;> rw [h] at hlower <;> exact absurd hlower (by decide)
  rw [key?_literal, unquoted_of_head? hhead, Dialect.doubled_of_notMem hquote,
    bareKey?_of_truth (by simpa using htruth), key?, textKey?_eq, hplain, if_pos htruth]
  exact fun hsame => hcase (String.ofList_injective (Option.some.inj hsame)).symm

theorem key?_literal_ne (hbare : ¬IsBare s.toList) (hcall : ¬IsCall (unquoted '"' s.toList)) :
    (expression (string s).toText).key? boolean ≠ (string s).key? boolean := by
  by_cases hquote : '\'' ∈ s.toList
  · exact key?_literal_ne_of_mem hquote hcall
  · by_cases hplain : plain s.toList = s.toList
    · by_cases htruth : s.toList.map Char.toLower ∈ ["true".toList, "false".toList]
      · exact key?_literal_ne_of_truth hquote hplain htruth fun hcase =>
          hbare ⟨hquote, hplain, fun _ => hcase⟩
      · exact absurd ⟨hquote, hplain, fun h => absurd h htruth⟩ hbare
    · exact key?_literal_ne_of_plain hquote hplain hcall

/-- A default that is reported back as it was written is the same default, but for strings that are
neither bare nor calls. -/
theorem key?_toText_iff (d : ColumnDefault) (boolean : Bool) :
    (expression d.toText).key? boolean = d.key? boolean ↔
      ∀ s, d = string s → IsBare s.toList ∨ IsCall (unquoted '"' s.toList) := by
  have hword : ∀ word : String, Dialect.sqlite.render [.word word] = word := fun word => by
    simp [Dialect.render, Dialect.renderPiece]
  cases d with
  | null => exact iff_of_true (by cases boolean <;> decide +kernel) (by simp)
  | boolean b => exact iff_of_true (by cases b <;> cases boolean <;> decide +kernel) (by simp)
  | integer n => exact iff_of_true (by rw [key?, key?, toText, toSql, hword]) (by simp)
  | float x => exact iff_of_true (by rw [key?, key?, toText, toSql, hword]) (by simp)
  | expression sql =>
    refine iff_of_true ?_ (by simp)
    simp [toText, toSql, Dialect.render, Dialect.renderPiece]
  | string s =>
    simp only [string.injEq, forall_eq']
    constructor
    · intro hsame
      by_contra hneither
      rw [not_or] at hneither
      exact key?_literal_ne hneither.1 hneither.2 hsame
    · rintro (hbare | hcall)
      · exact key?_literal_of_isBare hbare
      · exact key?_literal_of_isCall hcall

/-- A single quote is doubled in the literal, and the doubled quote is kept in its key. -/
theorem key?_toText_apostrophe :
    (expression (string "it's").toText).key? false ≠ (string "it's").key? false := by
  decide +kernel

/-- A blank at the end, a cast, parentheses and capitals go from the string and stay in its literal. -/
example : ∀ s ∈ ["kg ", "a::b", "(a)", "TRUE"],
    ¬(IsBare s.toList ∨ IsCall (unquoted '"' s.toList)) := by decide +kernel

example : ∀ s ∈ ["", "kg", "say \"yes\"", "1.50", "current_timestamp(3)"],
    IsBare s.toList ∨ IsCall (unquoted '"' s.toList) := by decide +kernel

end EntitySql.ColumnDefault
