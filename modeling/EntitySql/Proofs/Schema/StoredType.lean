import EntitySql.Proofs.Numeral
import EntitySql.Proofs.Schema.DefaultKey
import EntitySql.Schema.FromEntities
/-!
# Stored types are stored as they are

Storing a type loses what the dialect cannot spell, and it loses it at once. `ColumnType.kept` tells what is left
without spelling anything: reading a spelled type gives that (`ColumnType.stored_eq_kept`), and nothing more is
lost of it (`ColumnType.kept_kept`). Types with numbers need the numbers to be read as they are written, and the
sign is a word of its own; all others are among a few words. A type that is known only by its spelling keeps it,
as the blanks around a spelling do not count (`ColumnType.ofText_trimmed`).
-/

namespace EntitySql

namespace Text

/-! ## Words -/

theorem words_cons_blank {c : Char} (hc : isBlank c = true) (cs : List Char) :
    words (c :: cs) = words cs := by
  simp only [words, List.foldr_cons, hc, if_true]
  rfl

theorem words_concat_blank {c : Char} (hc : isBlank c = true) (cs : List Char) :
    words (cs ++ [c]) = words cs := by
  simp only [words, List.foldr_append, List.foldr_cons, List.foldr_nil, hc, if_true, List.isEmpty_nil]

/-- Blanks at the ends do not matter. -/
theorem words_trim (cs : List Char) : words (trim cs) = words cs := by
  have hfront : ∀ cs : List Char, words (cs.dropWhile isBlank) = words cs := by
    intro cs
    induction cs with
    | nil => rfl
    | cons c rest ih =>
      rw [List.dropWhile_cons]
      split
      · rw [ih, words_cons_blank ‹_›]
      · rfl
  have hback : ∀ cs : List Char, words (cs.dropWhile isBlank).reverse = words cs.reverse := by
    intro cs
    induction cs with
    | nil => rfl
    | cons c rest ih =>
      rw [List.dropWhile_cons]
      split
      · rw [ih, List.reverse_cons, words_concat_blank ‹_›]
      · rfl
  rw [trim, hback, List.reverse_reverse, hfront]

/-- A trimmed text has no blanks to lose. -/
theorem trim_trim (cs : List Char) : trim (trim cs) = trim cs := by
  let front := cs.dropWhile isBlank
  have hhead : ∀ (cs : List Char), ∀ c ∈ (cs.dropWhile isBlank).head?, isBlank c = false := by
    intro cs c hc
    simpa [Option.mem_def.1 hc] using List.head?_dropWhile_not isBlank cs
  refine trim_eq_self (fun c hc => ?_) fun c hc => ?_
  · -- The front stays in place when the end is cut off.
    have hprefix : trim cs <+: front := by
      rw [← List.reverse_suffix, trim, List.reverse_reverse]
      exact List.dropWhile_suffix _
    obtain ⟨rest, hrest⟩ := hprefix
    refine hhead cs c ?_
    rw [← show front = cs.dropWhile isBlank from rfl, ← hrest, List.head?_append, Option.mem_def.1 hc]
    rfl
  · rw [trim, List.getLast?_reverse] at hc
    exact hhead _ c hc

/-- The case of letters has nothing to do with blanks. -/
theorem isBlank_toLower (c : Char) : isBlank c.toLower = isBlank c := by
  rcases toLower_eq_or c with hsame | ⟨hlow, hhigh, hplaces⟩
  · rw [hsame]
  · rw [isBlank_of_toNat (c := c) (by omega) (by omega), isBlank_of_toNat (by omega) (by omega)]

theorem map_toLower_trim (cs : List Char) : (trim cs).map Char.toLower = trim (cs.map Char.toLower) := by
  have hblank : isBlank ∘ Char.toLower = isBlank := funext isBlank_toLower
  have hdrop : ∀ cs : List Char, (cs.dropWhile isBlank).map Char.toLower =
      (cs.map Char.toLower).dropWhile isBlank := fun cs => by
    rw [List.dropWhile_map, hblank]
  rw [trim, trim, List.map_reverse, hdrop, List.map_reverse, hdrop]

/-- The words of two texts with a blank between them. -/
theorem words_append_blank (first rest : List Char) :
    words (first ++ ' ' :: rest) = words first ++ words rest := by
  let step := fun (c : Char) ((current, done) : List Char × List (List Char)) =>
    if isBlank c then ([], if current.isEmpty then done else current :: done) else (c :: current, done)
  -- The words that are done do not matter for those that are read in front of them.
  have hfold : ∀ (cs : List Char) (done : List (List Char)),
      cs.foldr step ([], done) =
        ((cs.foldr step ([], [])).1, (cs.foldr step ([], [])).2 ++ done) := by
    intro cs done
    induction cs with
    | nil => rfl
    | cons c cs ih =>
      rw [List.foldr_cons, List.foldr_cons, ih]
      simp only [step]
      repeat' split
      all_goals rfl
  have hwords : ∀ cs, words cs = if (cs.foldr step ([], [])).1.isEmpty then (cs.foldr step ([], [])).2
      else (cs.foldr step ([], [])).1 :: (cs.foldr step ([], [])).2 := fun _ => rfl
  have hblank : (' ' :: rest).foldr step ([], []) = ([], words rest) := rfl
  rw [hwords, List.foldr_append, hblank, hfold, hwords first]
  split <;> rfl

/-- A word is the only one in it. -/
theorem words_word {word : List Char} (hword : ∀ c ∈ word, isBlank c = false) (hne : word ≠ []) :
    words word = [word] := by
  let step := fun (c : Char) ((current, done) : List Char × List (List Char)) =>
    if isBlank c then ([], if current.isEmpty then done else current :: done) else (c :: current, done)
  have hfold : word.foldr step ([], []) = (word, []) := by
    clear hne
    induction word with
    | nil => rfl
    | cons c rest ih =>
      rw [List.foldr_cons, ih fun x hx => hword x (.tail c hx)]
      simp [step, hword c (.head rest)]
  have hnonempty : word.isEmpty = false := by simpa using hne
  change (if (word.foldr step ([], [])).1.isEmpty then _ else _) = _
  rw [hfold]
  simp [hnonempty]

/-! ## Numbers -/

/-- The decimal digits of a number. -/
def digits (n : UInt32) : List Char := Nat.toDigits 10 n.toNat

theorem isDigit_of_mem_digits {n : UInt32} {c : Char} (h : c ∈ digits n) : isDigit c = true :=
  isDigit_of_mem_toDigits h

theorem uint32?_digits (n : UInt32) : uint32? (digits n) = some n := by
  have hall : (digits n).all isDigit = true := List.all_eq_true.2 fun _ => isDigit_of_mem_digits
  have hnat : nat? (digits n) = some n.toNat := by
    rw [nat?, hall, digits, natOfDigits_toDigits]
    simp [Nat.toDigits_ne_nil]
  rw [uint32?, hnat, Option.bind_some, if_pos n.toNat_lt]
  simp

theorem isDecimalDigit_of_mem_digits {n : UInt32} {c : Char} (h : c ∈ digits n) :
    isDecimalDigit c = true := by
  have hrange := range_of_isDigit (isDigit_of_mem_digits h)
  exact List.any_eq_true.2 ⟨(0x30, 0x39), .head _, by simpa using hrange⟩

end Text

namespace ColumnType

open Text (digits)

namespace Spelling

/-! ## Taking a spelling with numbers apart -/

/-- Digits in front of a mark are a number. -/
theorem takeNumber?_digits (n : UInt32) {mark : Char} (hmark : mark = ')' ∨ mark = ',')
    (rest : List Char) : takeNumber? (digits n ++ mark :: rest) = some (digits n, mark :: rest) := by
  have hne : digits n ≠ [] := Nat.toDigits_ne_nil
  have hfirst : ∀ c ∈ (digits n ++ mark :: rest).head?, (c == ' ') = false := by
    intro c hc
    rw [List.head?_append, Option.or_of_isSome (by simpa using hne)] at hc
    have hdigit := Text.isDigit_of_mem_digits (List.mem_of_mem_head? hc)
    rw [beq_eq_false_iff_ne]
    rintro rfl
    cases hdigit
  have hend : Text.isDecimalDigit mark = false ∧ (mark == ' ') = false := by
    rcases hmark with rfl | rfl <;> decide
  have hdigits : ∀ c ∈ digits n, Text.isDecimalDigit c = true := fun c hc =>
    Text.isDecimalDigit_of_mem_digits hc
  have htake : (digits n ++ mark :: rest).takeWhile Text.isDecimalDigit = digits n := by
    rw [List.takeWhile_append_of_pos hdigits, List.takeWhile_cons_of_neg (by simp [hend.1]),
      List.append_nil]
  have hdrop : (digits n ++ mark :: rest).dropWhile Text.isDecimalDigit = mark :: rest := by
    rw [List.dropWhile_append_of_pos hdigits, List.dropWhile_cons_of_neg (by simp [hend.1])]
  rw [takeNumber?, Text.dropWhile_eq_self hfirst]
  have hrest : (mark :: rest).dropWhile (· == ' ') = mark :: rest :=
    List.dropWhile_cons_of_neg (by simp [hend.2])
  simp [htake, hdrop, hrest, hne]

/-- The characters of one number or two in parentheses. -/
def numberChars (first : UInt32) (second? : Option UInt32) : List Char :=
  '(' :: (digits first ++ ((second?.map fun n => ',' :: digits n).getD [] ++ [')']))

theorem range_of_isLetter {c : Char} (h : isLetter c = true) : 97 ≤ c.toNat ∧ c.toNat ≤ 122 := by
  simp only [isLetter, Bool.and_eq_true, decide_eq_true_eq] at h
  exact ⟨UInt32.le_iff_toNat_le.1 h.1, UInt32.le_iff_toNat_le.1 h.2⟩

/-- A name of letters with numbers behind it is taken apart. -/
theorem ofChars?_numbers {base : List Char} (hbase : ∀ c ∈ base, isLetter c = true) (hne : base ≠ [])
    (first : UInt32) (second? : Option UInt32) :
    ofChars? (base ++ numberChars first second?) =
      some { name := String.ofList base, first? := some first, second? } := by
  have hname : ∀ c ∈ base, isNameChar c = true := fun c hc => by simp [isNameChar, hbase c hc]
  have hblank : ∀ c ∈ base, Text.isBlank c = false := fun c hc => by
    obtain ⟨hlow, hhigh⟩ := range_of_isLetter (hbase c hc)
    exact Text.isBlank_of_toNat (by omega) (by omega)
  have htrim : Text.trim base = base :=
    Text.trim_eq_self (fun c hc => hblank c (List.mem_of_mem_head? hc)) fun c hc =>
      hblank c (List.mem_of_mem_getLast? hc)
  have hparts : ∀ rest, (base ++ '(' :: rest).takeWhile isNameChar = base ∧
      (base ++ '(' :: rest).dropWhile isNameChar = '(' :: rest := by
    intro rest
    rw [List.takeWhile_append_of_pos hname, List.dropWhile_append_of_pos hname]
    exact ⟨by rw [List.takeWhile_cons_of_neg (by decide), List.append_nil],
      List.dropWhile_cons_of_neg (by decide)⟩
  have hletter : base.head?.any isLetter = true := by
    cases base with
    | nil => exact absurd rfl hne
    | cons c rest => exact hbase c (.head rest)
  have hjoin : joinName base [] = String.ofList base := by
    rw [joinName, htrim]
    rfl
  have hnumbers : takeNumbers? (digits first ++ ((second?.map fun n => ',' :: digits n).getD [] ++ [')'])) =
      some (digits first, (second?.map digits).getD [], []) := by
    cases second? with
    | none =>
      rw [takeNumbers?, Option.map_none, Option.getD_none, List.nil_append,
        takeNumber?_digits first (.inl rfl)]
      rfl
    | some second =>
      simp only [takeNumbers?, Option.map_some, Option.getD_some, List.cons_append,
        takeNumber?_digits first (.inr rfl), takeNumber?_digits second (.inl rfl)]
  have hsecond : Text.uint32? ((second?.map digits).getD []) = second? := by
    cases second? with
    | none => rfl
    | some second => exact Text.uint32?_digits second
  simp only [numberChars, ofChars?, (hparts _).1, (hparts _).2, hletter, hnumbers, hjoin, hsecond,
    Text.uint32?_digits]
  rfl

end Spelling

/-! ## Reading what is spelled -/

/-- A spelling of one word stands for the type of the word. -/
theorem ofText_word {text : String} {word : List Char} (htext : text.toList.map Char.toLower = word)
    (hblank : ∀ c ∈ word, Text.isBlank c = false) (hne : word ≠ []) (hplain : word ∉ storageWords)
    {t : ColumnType} (ht : (Spelling.ofChars? word).bind Spelling.toType? = some t) :
    ofText text = t := by
  have hwords : spelledWords text = [word] := by
    rw [spelledWords, htext, Text.words_word hblank hne]
  have hkeep : [word].filter (!storageWords.contains ·) = [word] :=
    List.filter_cons_of_pos (by simpa using hplain)
  have hunsigned : unsignedWord ≠ word := fun h => hplain (h ▸ .head _)
  have hone : List.intercalate [' '] [word] = word := List.append_nil word
  rw [ofText, hwords, hkeep, hone, ht]
  simp [hunsigned]

/-- A word with numbers behind it is read with its numbers. -/
theorem ofText_withNumbers {word : String} (base : List Char)
    (hword : word.toList.map Char.toLower = base) (hbase : base.all Spelling.isLetter = true)
    (hne : base ≠ []) {first : UInt32} (second? : Option UInt32) {t : ColumnType}
    (ht : Spelling.toType? { name := String.ofList base, first? := some first, second? } = some t) :
    ofText (withNumbers word (first :: second?.toList)) = t := by
  rw [List.all_eq_true] at hbase
  have hlower : ∀ n, (digits n).map Char.toLower = digits n := by
    refine fun n => (List.map_congr_left fun c hc => ?_).trans (List.map_id _)
    obtain ⟨_, hhigh⟩ := Text.range_of_isDigit (Text.isDigit_of_mem_digits hc)
    exact (Text.toLower_eq_or c).resolve_right (by omega)
  have hblank : ∀ n, ∀ c ∈ digits n, Text.isBlank c = false := fun n c hc => by
    obtain ⟨_, _⟩ := Text.range_of_isDigit (Text.isDigit_of_mem_digits hc)
    exact Text.isBlank_of_toNat (by omega) (by omega)
  have hletters : ∀ c ∈ base, Text.isBlank c = false := fun c hc => by
    obtain ⟨_, _⟩ := Spelling.range_of_isLetter (hbase c hc)
    exact Text.isBlank_of_toNat (by omega) (by omega)
  have hstorage : base ++ Spelling.numberChars first second? ∉ storageWords := fun hmem => by
    have hparenthesis : ∀ word ∈ storageWords, '(' ∉ word := by decide
    exact hparenthesis _ hmem (List.mem_append_right _ (.head _))
  have htext : (withNumbers word (first :: second?.toList)).toList =
      word.toList ++ Spelling.numberChars first second? := by
    cases second? <;> simp [withNumbers, Spelling.numberChars, digits]
  refine ofText_word ?_ ?_ (by simp [Spelling.numberChars]) hstorage
    (by rw [Spelling.ofChars?_numbers hbase hne, Option.bind_some, ht])
  · rw [htext, List.map_append, hword]
    cases second? <;> simp [Spelling.numberChars, hlower]
  · have hopen : Text.isBlank '(' = false := by decide
    have hcomma : Text.isBlank ',' = false := by decide
    have hclose : Text.isBlank ')' = false := by decide
    refine List.forall_mem_append.2 ⟨hletters, ?_⟩
    cases second? with
    | none => simpa [Spelling.numberChars, or_imp, forall_and, hopen, hclose] using hblank first
    | some second =>
      simpa [Spelling.numberChars, or_imp, forall_and, hopen, hcomma, hclose] using
        ⟨hblank first, hblank second⟩

/-- Blanks around a spelling do not count. -/
theorem ofText_trimmed (text : String) : ofText (Text.trimmed text) = ofText text := by
  have hwords : spelledWords (Text.trimmed text) = spelledWords text := by
    rw [spelledWords, Text.trimmed, String.toList_ofList, Text.map_toLower_trim, Text.words_trim]
    rfl
  have hagain : Text.trimmed (Text.trimmed text) = Text.trimmed text := by
    rw [Text.trimmed, Text.trimmed, String.toList_ofList, Text.trim_trim]
  rw [ofText, ofText, hwords, hagain]

/-- A type that is known by its spelling only is nothing else. -/
theorem ofText_eq_unknown {text : String} (h : (ofText text).category = .unknown) :
    ofText text = unknown (Text.trimmed text) := by
  have hknown : ∀ (s : Spelling) (t : ColumnType), s.toType? = some t → t.category ≠ .unknown := by
    intro s t ht
    unfold Spelling.toType? at ht
    split at ht <;> cases ht
    case h_1 => split <;> simp [of, integer]
    all_goals simp [of, integer]
  unfold ofText at h ⊢
  dsimp only at h ⊢
  split at h
  · rename_i t ht
    obtain ⟨s, _, hs⟩ := Option.bind_eq_some_iff.1 ht
    refine absurd h ?_
    split
    · exact hknown s t hs
    · exact hknown s t hs
  · rfl

/-- The word for the sign behind a spelling takes the sign from a number. -/
theorem ofText_unsigned {text : String} {t : ColumnType} (ht : ofText text = t)
    (hnumeric : t.isNumeric = true) : ofText (text ++ " UNSIGNED") = { t with unsigned := true } := by
  have hwords : spelledWords (text ++ " UNSIGNED") = spelledWords text ++ [unsignedWord] := by
    rw [spelledWords, String.toList_append, List.map_append]
    exact Text.words_append_blank _ unsignedWord
  have hsame : (spelledWords text ++ [unsignedWord]).filter (!storageWords.contains ·) =
      (spelledWords text).filter (!storageWords.contains ·) := by
    rw [List.filter_append, List.filter_cons_of_neg (by decide), List.filter_nil, List.append_nil]
  unfold ofText at ht ⊢
  dsimp only at ht ⊢
  rw [hwords, hsame]
  split at ht
  · rename_i u hu
    have hsign : ∀ b : Bool, t = (if b then { u with unsigned := true } else u) →
        u.isNumeric = true ∧ { u with unsigned := true } = { t with unsigned := true } := by
      rintro (_ | _) rfl <;> exact ⟨hnumeric, rfl⟩
    obtain ⟨hu, hunsigned⟩ := hsign _ ht.symm
    simp [hu, hunsigned]
  · rw [← ht] at hnumeric
    cases hnumeric

/-! ## Stored types -/

/-- The spellings without a number to be read, each with the type that it stands for. -/
def plainSpellings : List (String × ColumnType) :=
  [("TINYINT", integer .tiny), ("SMALLINT", integer .small), ("MEDIUMINT", integer .medium),
    ("INT", integer .regular), ("INTEGER", integer .regular), ("BIGINT", integer .big),
    ("FLOAT", of .float), ("REAL", of .float), ("DOUBLE", of .double), ("DOUBLE PRECISION", of .double),
    ("DECIMAL", of .decimal), ("TEXT", of .text), ("TINYINT(1)", of .boolean), ("BOOLEAN", of .boolean),
    ("DATE", of .date), ("TIME", of .time), ("TIMETZ", { category := .time, withTimezone := true }),
    ("TIMESTAMP", of .timestamp), ("TIMESTAMPTZ", { category := .timestamp, withTimezone := true }),
    ("JSON", of .json), ("JSONB", of .json), ("UUID", of .uuid), ("BLOB", of .blob),
    ("BYTEA", of .blob), ("VECTOR", of .vector)]

theorem ofText_plainSpelling : ∀ entry ∈ plainSpellings, ofText entry.1 = entry.2 := by
  decide +kernel

theorem category_plainSpelling : ∀ entry ∈ plainSpellings, entry.2.category ≠ .string := by
  decide +kernel

/-- Only a string can be a UUID in disguise. -/
theorem ofSql_of_ofText {sql : String} {d : Dialect} {t : ColumnType} (hread : ofText sql = t)
    (h : t.category ≠ .string) : ofSql sql d = t := by
  simp [ofSql, hread, h]

theorem ofSql_plainSpelling (d : Dialect) {sql : String} {t : ColumnType}
    (h : (sql, t) ∈ plainSpellings) : ofSql sql d = t :=
  ofSql_of_ofText (ofText_plainSpelling (sql, t) h) (category_plainSpelling (sql, t) h)

/-- The MySQL grammar has no UUIDs but reads them from strings that are as long. -/
theorem ofSql_char36 : ∀ d : Dialect, d.isMySqlLike = true → ofSql "CHAR(36)" d = of .uuid
  | .mysql, _ | .mariadb, _ => by decide +kernel

/-- A string of some length is no UUID in disguise, whatever the length. -/
theorem ofSql_varchar (n : UInt32) (d : Dialect) : ofSql (withNumbers "VARCHAR" [n]) d = varchar n := by
  have hread : ofText (withNumbers "VARCHAR" [n]) = varchar n :=
    ofText_withNumbers "varchar".toList (by decide) (by decide) (by decide) none rfl
  have hchars : (withNumbers "VARCHAR" [n]).toList = 'V' :: ("ARCHAR(".toList ++ digits n ++ [')']) := by
    simp [withNumbers, digits]
  have htrim : Text.trim (withNumbers "VARCHAR" [n]).toList = (withNumbers "VARCHAR" [n]).toList := by
    rw [hchars]
    refine Text.trim_eq_self (fun c hc => ?_) fun c hc => ?_
    · obtain rfl := Option.mem_some_iff.1 hc
      decide
    · rw [← List.cons_append, List.getLast?_concat] at hc
      obtain rfl := Option.mem_some_iff.1 hc
      decide
  have hstart : ("char(".toList.isPrefixOf
      ((Text.trim (withNumbers "VARCHAR" [n]).toList).map Char.toLower)) = false := by
    rw [htrim, hchars]
    rfl
  simp only [ofSql, hstart, Bool.and_false, hread]
  rfl

theorem ofSql_unsigned {sql : String} {d : Dialect} {t : ColumnType} (ht : ofSql sql d = t)
    (hnumeric : t.isNumeric = true) : ofSql (sql ++ " UNSIGNED") d = { t with unsigned := true } := by
  have hread : ofText sql = t := by
    simp only [ofSql] at ht
    split at ht
    · rw [← ht] at hnumeric
      cases hnumeric
    · exact ht
  refine ofSql_of_ofText (ofText_unsigned hread hnumeric) fun hstring => ?_
  rw [isNumeric, show t.category = .string from hstring] at hnumeric
  cases hnumeric

/-! ## What is left of a type -/

/-- The size that is read back where an integer of the given size was stored. -/
def keptSize (d : Dialect) : IntegerSize → IntegerSize
  | .tiny => if d = .postgres then .small else .tiny
  | .medium => if d = .postgres then .regular else .medium
  | size => size

/-- What is left of a type, apart from its sign. The digits of a decimal are counted together, or not at all. -/
def keptBase (t : ColumnType) (d : Dialect) : ColumnType :=
  match t.category with
  | .integer => integer (keptSize d t.size)
  | .decimal =>
    { category := .decimal, precision? := t.precision?
      scale? := t.precision?.map fun _ => t.scale?.getD 0 }
  | .string => varchar (t.length?.getD 255)
  | .time => { category := .time, withTimezone := t.withTimezone && d = .postgres }
  | .timestamp => { category := .timestamp, withTimezone := t.withTimezone && !d.isMySqlLike }
  | .vector => if d.isMySqlLike then of .json else { category := .vector, length? := t.length? }
  | category => of category

/-- What is left of a type: the modifiers that mean something for its family and can be spelled. -/
def kept (t : ColumnType) (d : Dialect) : ColumnType :=
  { t.keptBase d with unsigned := t.unsigned && d.isMySqlLike && t.isNumeric }

theorem keptBase_unsigned (t : ColumnType) (d : Dialect) : (t.keptBase d).unsigned = false := by
  unfold keptBase
  split <;> try rfl
  split <;> rfl

theorem keptBase_category (t : ColumnType) (d : Dialect) :
    (t.keptBase d).category = if d.isMySqlLike ∧ t.category = .vector then .json else t.category := by
  unfold keptBase
  split <;> simp_all [integer, varchar, of]
  split <;> rfl

theorem isNumeric_keptBase (t : ColumnType) (d : Dialect) : (t.keptBase d).isNumeric = t.isNumeric := by
  rw [isNumeric, keptBase_category, isNumeric]
  split
  · rename_i h
    rw [h.2]
    rfl
  · rfl

/-- Nothing more is lost of what is left. -/
theorem kept_kept (t : ColumnType) (d : Dialect) : (t.kept d).kept d = t.kept d := by
  have hbase : (t.kept d).keptBase d = t.keptBase d := by
    rcases t with ⟨category, size?, length?, precision?, scale?, unsigned, withTimezone, raw?⟩
    cases category with
    | integer => rcases size? with _ | (_ | _ | _ | _ | _) <;> cases d <;> rfl
    | decimal => cases precision? <;> rfl
    | time | timestamp => cases d <;> cases withTimezone <;> rfl
    | vector => cases d <;> rfl
    | _ => rfl
  have hnumeric : (t.kept d).isNumeric = t.isNumeric := isNumeric_keptBase t d
  have hsign : ∀ unsigned known numeric : Bool, (unsigned && known && numeric && known && numeric) =
      (unsigned && known && numeric) := by decide
  rw [kept, hbase, hnumeric]
  simp only [kept, hsign]

/-- A dialect reads of its own spelling without the sign what is left of the type. -/
theorem ofSql_baseSql (d : Dialect) {t : ColumnType} (h : t.category ≠ .unknown) :
    ofSql (t.baseSql d) d = t.keptBase d := by
  have hplain : (t.baseSql d, t.keptBase d) ∈ plainSpellings → ofSql (t.baseSql d) d = t.keptBase d :=
    ofSql_plainSpelling d
  rcases t with ⟨category, size?, length?, precision?, scale?, unsigned, withTimezone, raw?⟩
  cases category with
  | unknown => exact absurd rfl h
  | integer =>
    rcases size? with _ | (_ | _ | _ | _ | _) <;> cases d <;>
      exact hplain (by
        simp [plainSpellings, baseSql, keptBase, integerWord, keptSize, size, Dialect.isMySqlLike])
  | float | double | text | boolean | date | json | blob =>
    cases d <;> exact hplain (by simp [plainSpellings, baseSql, keptBase, Dialect.isMySqlLike])
  | time | timestamp =>
    cases d <;> cases withTimezone <;>
      exact hplain (by simp [plainSpellings, baseSql, keptBase, of, Dialect.isMySqlLike])
  | uuid =>
    cases d with
    | postgres | sqlite => exact hplain (by simp [plainSpellings, baseSql, keptBase, Dialect.isMySqlLike])
    | mysql | mariadb => exact ofSql_char36 _ rfl
  | decimal =>
    have htext : ∀ (p : UInt32) (s? : Option UInt32), ofText (withNumbers "DECIMAL" (p :: s?.toList)) =
        { category := .decimal, precision? := some p, scale? := s?.or (some 0) } := fun p s? =>
      ofText_withNumbers "decimal".toList (by decide) (by decide) (by decide) s? rfl
    cases precision? with
    | none => exact hplain (by simp [plainSpellings, baseSql, keptBase, of])
    | some p =>
      -- Without digits behind the point there are none.
      cases scale? with
      | none => exact ofSql_of_ofText (htext p none) fun h => by cases h
      | some s => exact ofSql_of_ofText (htext p (some s)) fun h => by cases h
  | string => exact ofSql_varchar _ d
  | vector =>
    cases length? with
    | none => cases d <;> exact hplain (by simp [plainSpellings, baseSql, keptBase, of, Dialect.isMySqlLike])
    | some n =>
      have htext : ofText (withNumbers "VECTOR" [n]) = { category := .vector, length? := some n } :=
        ofText_withNumbers "vector".toList (by decide) (by decide) (by decide) none rfl
      cases d with
      | postgres | sqlite => exact ofSql_of_ofText htext fun h => by cases h
      | mysql | mariadb => exact hplain (by simp [plainSpellings, baseSql, keptBase, Dialect.isMySqlLike])

/-- What is stored of a type that is known by more than its spelling. -/
theorem stored_eq_kept (d : Dialect) {t : ColumnType} (h : t.category ≠ .unknown) :
    t.stored d = t.kept d := by
  rw [stored, if_neg h, toSql]
  split
  · rename_i hsign
    have hnumeric : (t.keptBase d).isNumeric = true := by
      rw [isNumeric_keptBase]
      exact (Bool.and_eq_true _ _ ▸ hsign).2
    rw [ofSql_unsigned (ofSql_baseSql d h) hnumeric, kept, hsign]
  · rename_i hsign
    rw [ofSql_baseSql d h, kept, Bool.eq_false_iff.2 hsign, ← keptBase_unsigned t d]

theorem category_kept_ne_unknown (d : Dialect) {t : ColumnType} (h : t.category ≠ .unknown) :
    (t.kept d).category ≠ .unknown := by
  rw [kept, keptBase_category]
  split
  · decide
  · exact h

/-- What is left of a type is reported as it is stored. -/
theorem toSql_stored (d : Dialect) {t : ColumnType} (h : t.category ≠ .unknown) :
    ofSql ((t.stored d).toSql d) d = t.stored d := by
  have hknown := category_kept_ne_unknown d h
  have hagain := stored_eq_kept d hknown
  rw [stored_eq_kept d h]
  rwa [stored, if_neg hknown, kept_kept] at hagain

/-- The family that is stored for a family: MySQL and MariaDB have no vectors and take them as JSON. -/
theorem category_stored (t : ColumnType) (d : Dialect) :
    (t.stored d).category = if d.isMySqlLike ∧ t.category = .vector then .json else t.category := by
  by_cases h : t.category = .unknown
  · rw [stored, if_pos h, h]
    simp
  · rw [stored_eq_kept d h]
    exact keptBase_category t d

/-- A type that is known by its spelling only is reported as it is declared. -/
theorem toSql_ofText {text : String} (d : Dialect) (h : (ofText text).category = .unknown) :
    ofSql ((ofText text).toSql d) d = ofText text := by
  have hread := ofText_eq_unknown h
  have hspelled : (ofText text).toSql d = Text.trimmed text := by
    rw [hread]
    rfl
  rw [hspelled]
  exact ofSql_of_ofText (ofText_trimmed text) (by rw [h]; decide)

end ColumnType

/-- What SQLite reports of a field's column is the type that it has stored. -/
theorem Field.ofSql_toSql_stored (f : Field) :
    ColumnType.ofSql ((f.columnType.stored .sqlite).toSql .sqlite) .sqlite =
      f.columnType.stored .sqlite := by
  by_cases hunknown : f.columnType.category = .unknown
  · obtain ⟨text, htext⟩ : ∃ text, f.columnType? = some text := by
      refine Option.ne_none_iff_exists'.1 fun hnone => ?_
      simp only [columnType, hnone, Option.map_none, Option.getD_none, logicalType] at hunknown
      cases htype : f.type <;> simp [htype, ColumnType.of, ColumnType.varchar, ColumnType.integer] at hunknown
    have hunread : (ColumnType.ofText text).category = .unknown := by
      simpa only [columnType, htext, Option.map_some, Option.getD_some] using hunknown
    have hsame : f.columnType = ColumnType.ofText text := by
      rw [ColumnType.ofText_eq_unknown hunread]
      simp [columnType, htext, ColumnType.ofText_eq_unknown hunread, ColumnType.unknown,
        ColumnType.isNumeric, TypeCategory.isNumeric]
    rw [ColumnType.stored, if_pos hunknown, hsame]
    exact ColumnType.toSql_ofText .sqlite hunread
  · exact ColumnType.toSql_stored .sqlite hunknown

/-! ## Stored schemas -/

namespace Schema

end Schema

end EntitySql
