import EntitySql.Json.Document
import EntitySql.Json.Writer
import EntitySql.Proofs.Numeral
/-!
# Written values are read back

The compact text of a JSON value falls into its tokens (`Json.tokens`), whatever its strings hold: each token is
cut off where the writer left it (`Token.Cuts`). Reading the tokens gives the value as it was written
(`Json.Document.ofText?_toText`), if its numbers are whole and fit in 64 bits (`Json.HasWholeNumbers`).
-/

namespace EntitySql.Json

/-! ## Strings -/

namespace Token

/-- A character that needs no escape stands for itself. -/
theorem readString_cons (done : List Char) {c : Char} (hquote : c ≠ '"') (hbackslash : c ≠ '\\')
    (hprinted : 0x20 ≤ c.toNat) (rest : List Char) :
    readString (some done) none (c :: rest) = readString (some (c :: done)) none rest := by
  have hspecial : ¬(c = '\\' ∨ c.toNat < 0x20) := by
    rintro (h | h)
    · exact hbackslash h
    · omega
  rw [readString]
  · simp [hspecial]
  · exact hquote
  · exact fun _ _ _ _ _ h _ => hbackslash h
  · exact fun _ _ h _ => hbackslash h

/-- The four digits of a small character are read back. -/
theorem hex4?_hexDigitLower {n : Nat} (h : n < 0x20) :
    hex4? '0' '0' (Text.hexDigitLower (n / 16)) (Text.hexDigitLower (n % 16)) = some n := by
  have hzero : Text.hexValue? '0' = some 0 := rfl
  rw [hex4?, hzero, Text.hexValue?_hexDigitLower _ (by omega), Text.hexValue?_hexDigitLower _ (by omega)]
  simp
  omega

/-- A character that is written by its number is read back. -/
theorem readString_hex (done : List Char) {c : Char} (h : c.toNat < 0x20) (rest : List Char) :
    readString (some done) none
        ('\\' :: 'u' :: '0' :: '0' :: Text.hexDigitLower (c.toNat / 16) :: Text.hexDigitLower (c.toNat % 16) ::
          rest) =
      readString (some (c :: done)) none rest := by
  have hhigh : isHighSurrogate c.toNat = false := by simp [isHighSurrogate]; omega
  have hlow : isLowSurrogate c.toNat = false := by simp [isLowSurrogate]; omega
  simp [readString, hex4?_hexDigitLower h, hhigh, hlow, Char.ofNat_toNat]

/-- A character of a string is read back, escaped or not. -/
theorem readString_escapeChar (done : List Char) (c : Char) (rest : List Char) :
    readString (some done) none (escapeChar c ++ rest) = readString (some (c :: done)) none rest := by
  unfold escapeChar
  split
  · subst_vars; rfl
  split
  · subst_vars; rfl
  split
  · exact readString_cons done ‹_› ‹_› ‹_› rest
  · have hnumber : ∀ {n}, c.toNat = n → c = Char.ofNat n := fun h => by rw [← h, Char.ofNat_toNat]
    split
    · rw [hnumber ‹_›]; rfl
    · rw [hnumber ‹_›]; rfl
    · rw [hnumber ‹_›]; rfl
    · rw [hnumber ‹_›]; rfl
    · rw [hnumber ‹_›]; rfl
    · exact readString_hex done (by omega) rest

/-- A written string is read back up to its closing quotation mark. -/
theorem readString_flatMap_escapeChar (done cs rest : List Char) :
    readString (some done) none (cs.flatMap escapeChar ++ '"' :: rest) =
      some (some (String.ofList (done.reverse ++ cs)), rest) := by
  induction cs generalizing done with
  | nil => simp [readString]
  | cons c cs ih =>
    rw [List.flatMap_cons, List.append_assoc, readString_escapeChar, ih, List.reverse_cons, List.append_assoc]
    rfl

end Token

/-! ## Numbers -/

namespace Number

/-- Whether the number is whole and fits in 64 bits, with sign or without. -/
def IsWhole : Number → Prop
  | whole n => -0x8000000000000000 ≤ n ∧ n < 0x10000000000000000
  | real _ => False

theorem write_ofNat (k : Nat) : (whole (Int.ofNat k)).write = Nat.toDigits 10 k := Nat.toList_repr

theorem write_negSucc (k : Nat) : (whole (Int.negSucc k)).write = '-' :: Nat.toDigits 10 (k + 1) := by
  change ("-" ++ (k + 1).repr).toList = _
  rw [String.toList_append, Nat.toList_repr]
  rfl

/-- A whole number starts with a digit or a minus. -/
theorem exists_cons_write (n : Int) :
    ∃ c cs, (whole n).write = c :: cs ∧ (Text.isDigit c = true ∨ c = '-') := by
  cases n with
  | ofNat k =>
    obtain ⟨c, cs, hdigits⟩ := List.exists_cons_of_ne_nil (Nat.toDigits_ne_nil (n := k) (b := 10))
    have hc : c ∈ Nat.toDigits 10 k := hdigits ▸ List.mem_cons_self
    exact ⟨c, cs, by rw [write_ofNat, hdigits], .inl (Text.isDigit_of_mem_toDigits hc)⟩
  | negSucc k => exact ⟨'-', _, write_negSucc k, .inr rfl⟩

end Number

namespace Token

/-- Whether a text is at its end or goes on behind a value. -/
def Delimits (rest : List Char) : Prop := ∀ c ∈ rest.head?, c = ',' ∨ c = ']' ∨ c = '}'

/-- Digits behind a minus, or without one, are read as a number if nothing but a delimiter follows. -/
theorem readNumber_toDigits (negative : Bool) (n : Nat) {rest : List Char} (hrest : Delimits rest) :
    readNumber ((if negative then ['-'] else []) ++ (Nat.toDigits 10 n ++ rest)) =
      some (numberOf negative (Nat.toDigits 10 n) [] none, rest) := by
  have hdigit : ∀ c ∈ rest.head?, Text.isDigit c = false := by
    intro c hc
    rcases hrest c hc with rfl | rfl | rfl <;> rfl
  obtain ⟨htake, hdrop⟩ := Text.takeWhile_toDigits_append n hdigit
  have hleading : ((Nat.toDigits 10 n).isEmpty ||
      ((Nat.toDigits 10 n).head? == some '0' && (Nat.toDigits 10 n).length != 1)) = false := by
    rw [List.isEmpty_eq_false_iff.2 Nat.toDigits_ne_nil, Bool.false_or]
    rcases Nat.eq_zero_or_pos n with rfl | hpos
    · rfl
    · rw [beq_eq_false_iff_ne.2 (Text.head?_toDigits_ne hpos), Bool.false_and]
  have hminus : ∀ others, Nat.toDigits 10 n ++ rest ≠ '-' :: others := by
    intro others h
    obtain ⟨first, digits, hdigits⟩ := List.exists_cons_of_ne_nil (Nat.toDigits_ne_nil (n := n) (b := 10))
    have hfirst : first ∈ Nat.toDigits 10 n := hdigits ▸ List.mem_cons_self
    rw [hdigits] at h
    rw [(List.cons.inj h).1] at hfirst
    exact absurd (Text.isDigit_of_mem_toDigits hfirst) (by decide)
  unfold readNumber
  split
  rename_i sign body hsign
  -- The sign is told apart from the digits.
  have hparts : sign = negative ∧ body = Nat.toDigits 10 n ++ rest := by
    cases negative with
    | true => exact Prod.mk.inj hsign.symm
    | false =>
      split at hsign
      · exact absurd ‹_› (hminus _)
      · exact Prod.mk.inj hsign.symm
  obtain ⟨rfl, rfl⟩ := hparts
  dsimp only
  rw [htake, hdrop, hleading]
  cases rest with
  | nil => rfl
  | cons c rest => rcases hrest c rfl with rfl | rfl | rfl <;> rfl

/-- A whole number of 64 bits is read back. -/
theorem readNumber_write {n : Int} (hn : (Number.whole n).IsWhole) {rest : List Char} (hrest : Delimits rest) :
    readNumber ((Number.whole n).write ++ rest) = some (some (.whole n), rest) := by
  obtain ⟨hlow, hhigh⟩ := hn
  cases n with
  | ofNat k =>
    have hfits : k < 0x10000000000000000 := by
      rw [Int.ofNat_eq_natCast] at hhigh
      omega
    rw [Number.write_ofNat]
    refine (readNumber_toDigits false k hrest).trans ?_
    rw [numberOf, Text.natOfDigits_toDigits]
    simp [hfits]
  | negSucc k =>
    have hfits : k + 1 ≤ 0x8000000000000000 := by omega
    rw [Number.write_negSucc]
    refine (readNumber_toDigits true (k + 1) hrest).trans ?_
    rw [numberOf, Text.natOfDigits_toDigits]
    simpa [hfits] using (Int.negSucc_eq k).symm

end Token

/-! ## Tokens -/

mutual

/-- The tokens of a value. -/
def tokens : Json → List Token
  | .null => [.null]
  | .bool b => [.bool b]
  | .number n => [.number (some n)]
  | .string s => [.string (some s)]
  | .array items => .openArray :: tokensOfItems items ++ [.closeArray]
  | .object members => .openObject :: tokensOfMembers members ++ [.closeObject]
termination_by structural j => j

/-- The tokens of the items of an array, with commas between them. -/
def tokensOfItems : List Json → List Token
  | [] => []
  | [item] => tokens item
  | item :: next :: rest => tokens item ++ .comma :: tokensOfItems (next :: rest)
termination_by structural items => items

/-- The tokens of the members of an object, with commas between them. -/
def tokensOfMembers : List (String × Json) → List Token
  | [] => []
  | [(key, value)] => .string (some key) :: .colon :: tokens value
  | (key, value) :: next :: rest =>
    .string (some key) :: .colon :: tokens value ++ .comma :: tokensOfMembers (next :: rest)
termination_by structural members => members

end

mutual

/-- Whether all numbers in the value are whole and fit in 64 bits. -/
def HasWholeNumbers : Json → Prop
  | .null | .bool _ | .string _ => True
  | .number n => n.IsWhole
  | .array items => HaveWholeNumbers items
  | .object members => MembersHaveWholeNumbers members
termination_by structural j => j

/-- Whether all numbers in the items of an array are whole and fit in 64 bits. -/
def HaveWholeNumbers : List Json → Prop
  | [] => True
  | item :: rest => HasWholeNumbers item ∧ HaveWholeNumbers rest
termination_by structural items => items

/-- Whether all numbers in the members of an object are whole and fit in 64 bits. -/
def MembersHaveWholeNumbers : List (String × Json) → Prop
  | [] => True
  | (_, value) :: rest => HasWholeNumbers value ∧ MembersHaveWholeNumbers rest
termination_by structural members => members

end

/-- Whether a text starts with the tokens, which are cut off it one by one, and goes on with `rest`. -/
inductive Token.Cuts : List Char → List Token → List Char → Prop
  | nil (rest : List Char) : Cuts rest [] rest
  | cons {c : Char} {cs behind rest : List Char} {token : Token} {tokens : List Token}
    (hspace : Token.isSpace c = false) (htoken : readToken (c :: cs) = some (token, behind))
    (hshorter : behind.length ≤ cs.length) (h : Cuts behind tokens rest) :
    Cuts (c :: cs) (token :: tokens) rest

namespace Token.Cuts

theorem append {cs behind rest : List Char} {tokens others : List Token} (h : Cuts cs tokens behind)
    (hothers : Cuts behind others rest) : Cuts cs (tokens ++ others) rest := by
  induction h with
  | nil => exact hothers
  | cons hspace htoken hshorter _ ih => exact .cons hspace htoken hshorter (ih hothers)

/-- A text that falls into tokens is read as those, if there is a step for each character. -/
theorem readAll_eq {cs rest : List Char} {tokens : List Token} (h : Cuts cs tokens rest) (hrest : rest = [])
    (done : List Token) {fuel : Nat} (hfuel : cs.length ≤ fuel) :
    readAll done fuel cs = some (done.reverse ++ tokens) := by
  induction h generalizing done fuel with
  | nil rest =>
    subst hrest
    rw [List.append_nil]
    cases fuel <;> rfl
  | @cons c cs behind rest token tokens hspace htoken hshorter h ih =>
    cases fuel with
    | zero => cases hfuel
    | succ fuel =>
      rw [readAll, List.dropWhile_cons_of_neg (by simp [hspace])]
      simp only [htoken]
      rw [ih hrest (token :: done) (Nat.le_trans hshorter (Nat.le_of_succ_le_succ hfuel)), List.reverse_cons,
        List.append_assoc]
      rfl

end Token.Cuts

theorem Token.ofText?_of_cuts {cs : List Char} {tokens : List Token} (h : Cuts cs tokens []) :
    ofText? cs = some tokens := h.readAll_eq rfl [] (Nat.le_refl _)

namespace Token

theorem Cuts.singleton {c : Char} {cs rest : List Char} {token : Token} (hspace : isSpace c = false)
    (htoken : readToken (c :: cs) = some (token, rest)) (hshorter : rest.length ≤ cs.length) :
    Cuts (c :: cs) [token] rest := .cons hspace htoken hshorter (.nil rest)

theorem cuts_writeString (s : String) (rest : List Char) :
    Cuts (writeString s ++ rest) [.string (some s)] rest := by
  have htext : writeString s ++ rest = '"' :: (s.toList.flatMap escapeChar ++ '"' :: rest) := by
    simp [writeString]
  rw [htext]
  refine .singleton rfl ?_ (by simp; omega)
  rw [readToken, readString_flatMap_escapeChar, List.reverse_nil, List.nil_append, String.ofList_toList]
  rfl

theorem cuts_writeNumber {n : Number} (hn : n.IsWhole) {rest : List Char} (hrest : Delimits rest) :
    Cuts (n.write ++ rest) [.number (some n)] rest := by
  cases n with
  | real x => exact hn.elim
  | whole n =>
    have hread := readNumber_write hn hrest
    obtain ⟨c, cs, hwrite, hfirst⟩ := Number.exists_cons_write n
    have hother : ∀ other, Text.isDigit other = false → other ≠ '-' → c ≠ other := by
      rintro other hdigit hminus rfl
      rcases hfirst with h | h
      · cases hdigit.symm.trans h
      · exact hminus h
    rw [hwrite, List.cons_append] at hread ⊢
    refine .singleton ?_ ?_ (by simp)
    · simp [isSpace, hother ' ' rfl, hother '\t' rfl, hother '\n' rfl, hother '\r' rfl]
    · rw [readToken, hread]
      · rfl
      all_goals
        intro _ h
        exact hother _ rfl (by decide) (List.cons.inj h).1

end Token

/-! ## Values -/

open Token (Cuts Delimits)

theorem Token.delimits_cons {c : Char} (h : c = ',' ∨ c = ']' ∨ c = '}') (rest : List Char) :
    Delimits (c :: rest) := by
  intro other hother
  cases hother
  exact h

mutual

/-- The text of a value falls into the tokens of the value. -/
theorem cuts_write : ∀ j : Json, j.HasWholeNumbers → ∀ {rest : List Char}, Delimits rest →
    Cuts (j.write ++ rest) j.tokens rest
  | .null, _, rest, _ => .singleton rfl rfl (Nat.le_add_right rest.length 3)
  | .bool true, _, rest, _ => .singleton rfl rfl (Nat.le_add_right rest.length 3)
  | .bool false, _, rest, _ => .singleton rfl rfl (Nat.le_add_right rest.length 4)
  | .number n, hn, rest, hrest => Token.cuts_writeNumber hn hrest
  | .string s, _, rest, _ => Token.cuts_writeString s rest
  | .array items, hitems, rest, _ => by
    have hclose : Cuts (']' :: rest) [.closeArray] rest := .singleton rfl rfl (Nat.le_refl _)
    have hinside := cuts_writeItems items hitems (Token.delimits_cons (c := ']') (.inr (.inl rfl)) rest)
    have htext : (Json.array items).write ++ rest = '[' :: (writeItems items ++ ']' :: rest) := by
      simp [write]
    rw [htext]
    exact .cons rfl rfl (Nat.le_refl _) (hinside.append hclose)
  | .object members, hmembers, rest, _ => by
    have hclose : Cuts ('}' :: rest) [.closeObject] rest := .singleton rfl rfl (Nat.le_refl _)
    have hinside := cuts_writeMembers members hmembers (Token.delimits_cons (c := '}') (.inr (.inr rfl)) rest)
    have htext : (Json.object members).write ++ rest = '{' :: (writeMembers members ++ '}' :: rest) := by
      simp [write]
    rw [htext]
    exact .cons rfl rfl (Nat.le_refl _) (hinside.append hclose)

/-- The text of the items of an array falls into their tokens. -/
theorem cuts_writeItems : ∀ items : List Json, HaveWholeNumbers items → ∀ {rest : List Char}, Delimits rest →
    Cuts (writeItems items ++ rest) (tokensOfItems items) rest
  | [], _, rest, _ => .nil rest
  | [item], hitems, rest, hrest => cuts_write item hitems.1 hrest
  | item :: next :: others, hitems, rest, hrest => by
    have hothers := cuts_writeItems (next :: others) hitems.2 hrest
    have hcomma :
        Cuts (',' :: (writeItems (next :: others) ++ rest)) (.comma :: tokensOfItems (next :: others)) rest :=
      .cons rfl rfl (Nat.le_refl _) hothers
    have hitem := cuts_write item hitems.1 (Token.delimits_cons (.inl rfl) (writeItems (next :: others) ++ rest))
    have htext : writeItems (item :: next :: others) ++ rest =
        item.write ++ ',' :: (writeItems (next :: others) ++ rest) := by
      simp [writeItems]
    rw [htext]
    exact hitem.append hcomma

/-- The text of the members of an object falls into their tokens. -/
theorem cuts_writeMembers : ∀ members : List (String × Json), MembersHaveWholeNumbers members →
    ∀ {rest : List Char}, Delimits rest → Cuts (writeMembers members ++ rest) (tokensOfMembers members) rest
  | [], _, rest, _ => .nil rest
  | [(key, value)], hmembers, rest, hrest => by
    have hvalue := cuts_write value hmembers.1 hrest
    have hkey := Token.cuts_writeString key (':' :: (value.write ++ rest))
    have htext : writeMembers [(key, value)] ++ rest = writeString key ++ ':' :: (value.write ++ rest) := by
      simp [writeMembers]
    rw [htext]
    exact hkey.append (.cons rfl rfl (Nat.le_refl _) hvalue)
  | (key, value) :: next :: others, hmembers, rest, hrest => by
    have hothers := cuts_writeMembers (next :: others) hmembers.2 hrest
    have hcomma :
        Cuts (',' :: (writeMembers (next :: others) ++ rest)) (.comma :: tokensOfMembers (next :: others)) rest :=
      .cons rfl rfl (Nat.le_refl _) hothers
    have hvalue :=
      cuts_write value hmembers.1 (Token.delimits_cons (.inl rfl) (writeMembers (next :: others) ++ rest))
    have hkey := Token.cuts_writeString key
      (':' :: (value.write ++ ',' :: (writeMembers (next :: others) ++ rest)))
    have htext : writeMembers ((key, value) :: next :: others) ++ rest =
        writeString key ++ ':' :: (value.write ++ ',' :: (writeMembers (next :: others) ++ rest)) := by
      simp [writeMembers]
    rw [htext]
    exact hkey.append (.cons rfl rfl (Nat.le_refl _) (hvalue.append hcomma))

end

/-! ## Documents -/

namespace Document

/-- No value starts with a closing bracket. -/
theorem exists_cons_tokens (j : Json) : ∃ token others, j.tokens = token :: others ∧ token ≠ .closeArray := by
  cases j <;> exact ⟨_, _, rfl, nofun⟩

theorem exists_cons_tokensOfItems (item : Json) (others : List Json) :
    ∃ token behind, tokensOfItems (item :: others) = token :: behind ∧ token ≠ .closeArray := by
  obtain ⟨token, behind, htokens, hopen⟩ := exists_cons_tokens item
  cases others with
  | nil => exact ⟨token, behind, htokens, hopen⟩
  | cons next others => exact ⟨token, _, by rw [tokensOfItems, htokens]; rfl, hopen⟩

theorem exists_cons_tokensOfMembers (member : String × Json) (others : List (String × Json)) :
    ∃ behind, tokensOfMembers (member :: others) = .string (some member.1) :: behind := by
  cases others <;> exact ⟨_, rfl⟩

mutual

/-- The tokens of a value are read as the value, if there is a step for each of them. -/
theorem readValue_tokens : ∀ (j : Json) {fuel : Nat}, j.tokens.length ≤ fuel → ∀ rest : List Token,
    readValue fuel (j.tokens ++ rest) = some (ofJson j, rest)
  | .null, fuel + 1, _, _ | .bool _, fuel + 1, _, _ | .number _, fuel + 1, _, _ | .string _, fuel + 1, _, _ => rfl
  | .array [], fuel + 1, _, _ | .object [], fuel + 1, _, _ => rfl
  | .array (item :: others), fuel + 1, hfuel, rest => by
    have htokens : (Json.array (item :: others)).tokens ++ rest =
        .openArray :: (tokensOfItems (item :: others) ++ .closeArray :: rest) := by simp [tokens]
    have hlength : (tokensOfItems (item :: others)).length + 1 ≤ fuel := by
      simp only [tokens, List.length_cons, List.length_append, List.cons_append, List.length_nil] at hfuel
      omega
    have hitems := readItems_tokens item others hlength rest
    obtain ⟨token, behind, hfirst, hopen⟩ := exists_cons_tokensOfItems item others
    rw [htokens]
    rw [hfirst, List.cons_append] at hitems ⊢
    rw [readValue]
    · rw [hitems]
      rfl
    · intro _ h
      exact hopen (List.cons.inj h).1
  | .object (member :: others), fuel + 1, hfuel, rest => by
    have htokens : (Json.object (member :: others)).tokens ++ rest =
        .openObject :: (tokensOfMembers (member :: others) ++ .closeObject :: rest) := by simp [tokens]
    have hlength : (tokensOfMembers (member :: others)).length + 1 ≤ fuel := by
      simp only [tokens, List.length_cons, List.length_append, List.cons_append, List.length_nil] at hfuel
      omega
    have hmembers := readMembers_tokens member others hlength rest
    obtain ⟨behind, hfirst⟩ := exists_cons_tokensOfMembers member others
    rw [htokens]
    rw [hfirst, List.cons_append] at hmembers ⊢
    rw [readValue]
    · rw [hmembers]
      rfl
    · exact nofun

/-- The tokens of the items of an array are read up to the bracket that closes it. -/
theorem readItems_tokens : ∀ (item : Json) (others : List Json) {fuel : Nat},
    (tokensOfItems (item :: others)).length + 1 ≤ fuel → ∀ rest : List Token,
      readItems fuel (tokensOfItems (item :: others) ++ .closeArray :: rest) =
        some (ofItems (item :: others), rest)
  | item, [], fuel + 1, hfuel, rest => by
    have hitem := readValue_tokens item (Nat.le_of_succ_le_succ hfuel) (.closeArray :: rest)
    change readItems (fuel + 1) (item.tokens ++ .closeArray :: rest) = _
    rw [readItems, hitem]
    rfl
  | item, next :: others, fuel + 1, hfuel, rest => by
    have htokens : tokensOfItems (item :: next :: others) ++ .closeArray :: rest =
        item.tokens ++ .comma :: (tokensOfItems (next :: others) ++ .closeArray :: rest) := by
      simp [tokensOfItems]
    have hlength : item.tokens.length ≤ fuel ∧ (tokensOfItems (next :: others)).length + 1 ≤ fuel := by
      rw [tokensOfItems, List.length_append, List.length_cons] at hfuel
      omega
    have hitem :=
      readValue_tokens item hlength.1 (.comma :: (tokensOfItems (next :: others) ++ .closeArray :: rest))
    have hothers := readItems_tokens next others hlength.2 rest
    rw [htokens, readItems, hitem]
    dsimp only
    rw [hothers]
    rfl

/-- The tokens of the members of an object are read up to the brace that closes it. -/
theorem readMembers_tokens : ∀ (member : String × Json) (others : List (String × Json)) {fuel : Nat},
    (tokensOfMembers (member :: others)).length + 1 ≤ fuel → ∀ rest : List Token,
      readMembers fuel (tokensOfMembers (member :: others) ++ .closeObject :: rest) =
        some (ofMembers (member :: others), rest)
  | (key, value), [], fuel + 1, hfuel, rest => by
    have hlength : value.tokens.length ≤ fuel := by
      rw [tokensOfMembers, List.length_cons, List.length_cons] at hfuel
      omega
    have hvalue := readValue_tokens value hlength (.closeObject :: rest)
    change readMembers (fuel + 1) (.string (some key) :: .colon :: (value.tokens ++ .closeObject :: rest)) = _
    rw [readMembers, hvalue]
    rfl
  | (key, value), next :: others, fuel + 1, hfuel, rest => by
    have htokens : tokensOfMembers ((key, value) :: next :: others) ++ .closeObject :: rest =
        .string (some key) :: .colon ::
          (value.tokens ++ .comma :: (tokensOfMembers (next :: others) ++ .closeObject :: rest)) := by
      simp [tokensOfMembers]
    have hlength : value.tokens.length ≤ fuel ∧ (tokensOfMembers (next :: others)).length + 1 ≤ fuel := by
      simp only [tokensOfMembers, List.length_append, List.length_cons, List.cons_append] at hfuel
      omega
    have hvalue :=
      readValue_tokens value hlength.1 (.comma :: (tokensOfMembers (next :: others) ++ .closeObject :: rest))
    have hothers := readMembers_tokens next others hlength.2 rest
    rw [htokens, readMembers, hvalue]
    dsimp only
    rw [hothers]
    rfl

end

/-- The text of a value is read as it was written. -/
theorem ofText?_toText {j : Json} (hj : j.HasWholeNumbers) : ofText? j.toText = some (ofJson j) := by
  have hcuts : Token.Cuts (j.write ++ []) j.tokens [] := cuts_write j hj nofun
  rw [List.append_nil] at hcuts
  have hvalue := readValue_tokens j (Nat.le_succ j.tokens.length) []
  rw [List.append_nil] at hvalue
  rw [ofText?, toText, String.toList_ofList, Token.ofText?_of_cuts hcuts, Option.bind_eq_bind, Option.bind_some,
    hvalue]

end Document

/-! ## Values of documents -/

namespace Document

mutual

/-- A written value is the value of a document if it is not nested too deep. Members under one key come
together. -/
theorem isSome_toJson?_ofJson : ∀ (j : Json) {levels : Nat}, j.depth ≤ levels →
    (toJson? levels (ofJson j)).isSome = true
  | .null, _, _ | .bool _, _, _ | .number _, _, _ | .string _, _, _ => rfl
  | .array items, levels, hlevels => by
    rw [depth] at hlevels
    have hitems := isSome_itemsToJson?_ofItems items (Nat.le_sub_of_add_le hlevels)
    rw [ofJson, toJson?, if_neg (by omega), Option.isSome_map]
    exact hitems
  | .object members, levels, hlevels => by
    rw [depth] at hlevels
    have hmembers := isSome_membersToJson?_ofMembers members (Nat.le_sub_of_add_le hlevels)
    rw [ofJson, toJson?, if_neg (by omega), Option.isSome_map]
    exact hmembers

theorem isSome_itemsToJson?_ofItems : ∀ (items : List Json) {levels : Nat}, depthOfItems items ≤ levels →
    (itemsToJson? levels (ofItems items)).isSome = true
  | [], _, _ => rfl
  | item :: others, levels, hlevels => by
    rw [depthOfItems, Nat.max_le] at hlevels
    obtain ⟨value, hvalue⟩ := Option.isSome_iff_exists.1 (isSome_toJson?_ofJson item hlevels.1)
    obtain ⟨values, hvalues⟩ := Option.isSome_iff_exists.1 (isSome_itemsToJson?_ofItems others hlevels.2)
    rw [ofItems, itemsToJson?, hvalue, hvalues]
    rfl

theorem isSome_membersToJson?_ofMembers : ∀ (members : List (String × Json)) {levels : Nat},
    depthOfMembers members ≤ levels → (membersToJson? levels (ofMembers members)).isSome = true
  | [], _, _ => rfl
  | (key, value) :: others, levels, hlevels => by
    rw [depthOfMembers, Nat.max_le] at hlevels
    obtain ⟨written, hwritten⟩ := Option.isSome_iff_exists.1 (isSome_toJson?_ofJson value hlevels.1)
    obtain ⟨values, hvalues⟩ := Option.isSome_iff_exists.1 (isSome_membersToJson?_ofMembers others hlevels.2)
    rw [ofMembers, membersToJson?, hwritten, hvalues]
    rfl

end

end Document

end EntitySql.Json
