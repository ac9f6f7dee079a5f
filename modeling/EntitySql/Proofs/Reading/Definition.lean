import EntitySql.Proofs.Lexing.Literal
import EntitySql.Proofs.Reading.Values
/-!
# Reading definitions

Between the first parentheses of a statement that creates a table stand the definitions of its columns, each behind the
quoted name of the column, and clauses about several columns. A reader takes them apart at the commas outside all inner
parentheses, and knows the key by the word `PRIMARY` (`TableReading.ofTokens`).

A text is a part of a definition if the reader does not take it apart, and says whether it speaks of the key
(`Dialect.IsPart`). Parts behind one another are one part, provided that the second one does not touch the token in
front of it; and whatever stands between parentheses is one.
-/

namespace EntitySql

open Lexeme Lexer

/-! ## Readings -/

namespace Lexeme

/-- Whether the token is the word, in any case of letters. -/
def isKeyword (word : String) : Lexeme → Bool
  | .word text => text.map Char.toUpper == word.toList
  | .name _ | .literal _ | .symbol _ | .unclosed => false

/-- The name that the token quotes. -/
def name? : Lexeme → Option (List Char)
  | .name identifier => some identifier
  | .word _ | .literal _ | .symbol _ | .unclosed => none

/-- What stands in front of the parenthesis that closes one more than have been opened. -/
def upToClosing : Nat → List Lexeme → List Lexeme
  | _, [] => []
  | depth, t :: rest =>
    if depth = 0 ∧ t.role = .closing then [] else t :: upToClosing (t.role.depthBehind depth) rest

/-- The column that a part of a definition is about. -/
def columnOf? : List Lexeme → Option (List Char)
  | .name identifier :: _ => some identifier
  | _ => none

/-- The column of a part that declares it with the key. -/
def keyColumnOf? (part : List Lexeme) : Option (List Char) :=
  if part.any (isKeyword "PRIMARY") then columnOf? part else none

/-- The columns of a part that declares the key by itself. -/
def keyClause? : List Lexeme → Option (List (List Char))
  | .word first :: .word second :: .symbol '(' :: rest =>
    if (Lexeme.word first).isKeyword "PRIMARY" && (Lexeme.word second).isKeyword "KEY" then
      some (rest.filterMap name?)
    else none
  | _ => none

/-- The parts of the first parentheses of a statement. -/
def definitionParts (ts : List Lexeme) : List (List Lexeme) :=
  splitCommas 0 (upToClosing 0 ((ts.dropWhile fun t => t.role != .opening).drop 1))

end Lexeme

/-- What a reader finds in the statement that creates a table. -/
structure TableReading where
  /-- The columns that are declared. -/
  columns : List (List Char)
  /-- The columns that are declared with the key. -/
  inlineKeys : List (List Char)
  /-- The columns of each clause that declares the key by itself. -/
  keyClauses : List (List (List Char))
deriving DecidableEq, Repr

/-- The reading of the tokens of a statement. -/
def TableReading.ofTokens (ts : List Lexeme) : TableReading where
  columns := (definitionParts ts).filterMap columnOf?
  inlineKeys := (definitionParts ts).filterMap keyColumnOf?
  keyClauses := (definitionParts ts).filterMap keyClause?

namespace Lexeme

variable {ts us : List Lexeme} {depth : Nat} {roles : List Role}

theorem upToClosing_append (h : outline depth ts = some roles) {t : Lexeme} (ht : t.role = .closing)
    (us : List Lexeme) : upToClosing depth (ts ++ t :: us) = ts := by
  induction ts generalizing depth roles with
  | nil =>
    cases depth with
    | zero => exact if_pos ⟨rfl, ht⟩
    | succ depth => cases h
  | cons s rest ih =>
    obtain ⟨next, seen, more, hnext, hrest, -⟩ := outline_cons.1 h
    have hinside : ¬(depth = 0 ∧ s.role = .closing) := by
      rintro ⟨rfl, hclosing⟩
      rw [hclosing] at hnext
      cases hnext
    rw [List.cons_append, upToClosing, if_neg hinside, depthBehind_of_enter hnext, ih hrest]

/-- The parts between parentheses, whatever stands around them. -/
theorem definitionParts_eq {head : List Lexeme} (hhead : ∀ t ∈ head, t.role ≠ .opening) (h : IsClosed ts)
    (tail : List Lexeme) :
    definitionParts (head ++ .symbol '(' :: (ts ++ .symbol ')' :: tail)) = splitCommas 0 ts := by
  obtain ⟨roles, hroles⟩ := h
  have hdrop : (head ++ .symbol '(' :: (ts ++ .symbol ')' :: tail)).dropWhile (fun t => t.role != .opening) =
      .symbol '(' :: (ts ++ .symbol ')' :: tail) := by
    rw [List.dropWhile_append_of_pos (by simpa using hhead)]
    rfl
  rw [definitionParts, hdrop, List.drop_one, List.tail_cons, upToClosing_append hroles rfl]

end Lexeme

/-! ## Parts -/

namespace Dialect

variable {d : Dialect} {p q : Bool} {sql first second : Sql}

/-- A text that is one part of a list, with the word `PRIMARY` in it or without. -/
structure IsPart (d : Dialect) (primary : Bool) (sql : Sql) : Prop extends d.IsWhole sql where
  split : splitCommas 0 (d.tokens sql) = [d.tokens sql]
  primary : (d.tokens sql).any (isKeyword "PRIMARY") = primary

/-- Whether the text does not touch the token in front of it. -/
def Opens (d : Dialect) (sql : Sql) : Prop := ∀ c ∈ (d.characters sql).head?, isBreak c = true

theorem tokens_append_of_opens (h : d.Settles (d.characters first)) (hopens : d.Opens second) :
    d.tokens (first ++ second) = d.tokens first ++ d.tokens second := by
  cases hsecond : d.characters second with
  | nil =>
    have hnone : d.tokens second = [] := by rw [tokens, hsecond]; rfl
    rw [hnone, List.append_nil, tokens, characters_append, hsecond, List.append_nil]
    rfl
  | cons c rest => exact tokens_append_of_isBreak h (by rw [hsecond]; exact hopens c (by rw [hsecond]; rfl))

theorem settles_append_of_opens (h : d.Settles (d.characters first)) (hopens : d.Opens second)
    (hsecond : d.Settles (d.characters second)) : d.Settles (d.characters (first ++ second)) := by
  cases hcharacters : d.characters second with
  | nil => rwa [characters_append, hcharacters, List.append_nil]
  | cons c rest =>
    exact settles_append_of_head h (by rw [hcharacters]; exact hopens c (by rw [hcharacters]; rfl)) hsecond

theorem Opens.append (hfirst : d.Opens first) (hsecond : d.Opens second) : d.Opens (first ++ second) := by
  intro c hc
  rw [characters_append, List.head?_append] at hc
  cases hhead : (d.characters first).head? with
  | none => exact hsecond c (by rwa [hhead, Option.none_or] at hc)
  | some other =>
    rw [hhead, Option.some_or] at hc
    exact hfirst c (hhead.trans hc)

namespace IsPart

theorem of_characters_eq {other : Sql} (htext : d.characters other = d.characters sql) (h : d.IsPart p sql) :
    d.IsPart p other := by
  have htokens : d.tokens other = d.tokens sql := congrArg d.lexemes htext
  exact ⟨⟨htext ▸ h.settles, htokens ▸ h.isClosed⟩, htokens ▸ h.split, htokens ▸ h.primary⟩

theorem of_isPlainText (h : d.IsPlainText sql) (hkeyless : ∀ t ∈ d.tokens sql, t.isKeyword "PRIMARY" = false) :
    d.IsPart false sql :=
  ⟨h.isWhole, splitCommas_of_isPlain h.tokens, List.any_eq_false.2 fun t ht => by simp [hkeyless t ht]⟩

theorem nil : d.IsPart false [] := ⟨.nil, rfl, rfl⟩

theorem name (identifier : String) : d.IsPart false [.name identifier] :=
  of_isPlainText (.name identifier) (by rw [tokens_name]; exact List.forall_mem_singleton.2 rfl)

/-- A text is a part if its tokens are those of two parts behind one another. -/
theorem of_tokens_eq_append (hsettles : d.Settles (d.characters sql))
    (htokens : d.tokens sql = d.tokens first ++ d.tokens second) (hfirst : d.IsPart p first)
    (hsecond : d.IsPart q second) : d.IsPart (p || q) sql := by
  obtain ⟨roles, hroles⟩ := hfirst.isClosed
  refine ⟨⟨hsettles, ?_⟩, ?_, ?_⟩
  · rw [htokens]
    exact hfirst.isClosed.append hsecond.isClosed
  · rw [htokens, splitCommas_append_of_single hroles hfirst.split, hsecond.split]
    rfl
  · rw [htokens, List.any_append, hfirst.primary, hsecond.primary]

theorem append (hfirst : d.IsPart p first) (hsecond : d.IsPart q second) (hopens : d.Opens second) :
    d.IsPart (p || q) (first ++ second) :=
  of_tokens_eq_append (settles_append_of_opens hfirst.settles hopens hsecond.settles)
    (tokens_append_of_opens hfirst.settles hopens) hfirst hsecond

/-- A part behind words that end with a blank. -/
theorem behind {words : String} (hwords : d.IsPart p [.word words])
    (hblank : (d.scan .blank words.toList).2 = .blank) (h : d.IsPart q sql) :
    d.IsPart (p || q) (.word words :: sql) := by
  have htokens : d.tokens (.word words :: sql) = d.tokens [.word words] ++ d.tokens sql := by
    rw [tokens_words hblank, tokens_word]
  exact of_tokens_eq_append (d.settles_append_of_blank hblank h.settles) htokens hwords h

/-- Between parentheses anything is one part. -/
theorem parenthesized (h : d.IsWhole sql) (hkeyless : ∀ t ∈ d.tokens sql, t.isKeyword "PRIMARY" = false) :
    d.IsPart false (Sql.parenthesized sql) := by
  refine ⟨h.parenthesized, (isSingle_parenthesized h).split, List.any_eq_false.2 fun t ht => ?_⟩
  rw [tokens_parenthesized h, List.cons_append, List.mem_cons, List.mem_append, List.mem_singleton] at ht
  rcases ht with rfl | ht | rfl
  · exact Bool.false_ne_true
  · simp [hkeyless t ht]
  · exact Bool.false_ne_true

end IsPart

theorem opens_parenthesized (sql : Sql) : d.Opens (Sql.parenthesized sql) := by
  intro c hc
  obtain rfl := Option.mem_some_iff.1 hc
  decide

/-- Whether a word is read as one part. -/
def readsAsPart (d : Dialect) (primary : Bool) (text : List Char) : Bool :=
  let ts := d.lexemes text
  decide (d.Settles text) && (outline 0 ts).isSome && splitCommas 0 ts == [ts] &&
    ts.any (isKeyword "PRIMARY") == primary

theorem IsPart.of_reads {text : List Char} (h : d.readsAsPart p text = true) :
    d.IsPart p [.word (String.ofList text)] := by
  have htext : d.characters [.word (String.ofList text)] = text := by simp [renderPiece]
  have htokens : d.tokens [.word (String.ofList text)] = d.lexemes text := congrArg d.lexemes htext
  simp only [readsAsPart, Bool.and_eq_true, decide_eq_true_eq, beq_iff_eq, Option.isSome_iff_exists] at h
  obtain ⟨⟨⟨hsettles, hclosed⟩, hsplit⟩, hprimary⟩ := h
  exact ⟨⟨by rwa [htext], by rwa [Lexeme.IsClosed, htokens]⟩, by rwa [htokens], by rwa [htokens]⟩

/-! ## Literals and numbers -/

/-- A literal in standard spelling is read to its end where no backslash escapes anything. -/
theorem scan_inside_standard {text : List Char} (h : d.isMySqlLike = true → keepsBackslashes text = true)
    (read : List Char) :
    d.scan (.inside .single read) (doubled '\'' text) = ([], .inside .single (read ++ text)) := by
  by_cases hd : d.isMySqlLike = true
  · have hkeeps := h hd
    have hstep (c : Char) (read : List Char) (hquote : c ≠ '\'') (hescape : c ≠ '\\') :
        d.step (.inside .single read) c = ([], .inside .single (read ++ [c])) := by
      rw [step, if_neg (show c ≠ d.markOf .single from hquote), if_neg (by simp [hescape])]
    clear h
    induction text generalizing read with
    | nil => simp [doubled]
    | cons c rest ih =>
      obtain ⟨hloose, hrest⟩ := keepsBackslashes_cons_iff.1 hkeeps
      have hbehind : read ++ c :: rest = read ++ [c] ++ rest := by simp
      rw [hbehind, ← ih _ hrest]
      by_cases hquote : c = '\''
      · subst hquote
        rw [doubled_cons_self]
        exact (d.scan_cons_of_step rfl _).trans (d.scan_cons_of_step rfl _)
      · rw [doubled_cons_of_ne hquote]
        by_cases hescape : c = '\\'
        · -- The backslash is read together with the wildcard behind it.
          obtain ⟨next, others, rfl, hnext⟩ := hloose hescape
          subst hescape
          have hself : next ≠ '\'' ∧ next ≠ '\\' := by rcases hnext with rfl | rfl <;> decide
          have hback : unescape next = ['\\', next] := by rcases hnext with rfl | rfl <;> rfl
          have hopen : d.step (.inside .single read) '\\' = ([], .escaped .single read) := by
            simp [step, markOf, escapesIn, hd]
          have hclose : d.step (.escaped .single read) next = ([], .inside .single (read ++ ['\\', next])) := by
            rw [step, hback]
          rw [doubled_cons_of_ne hself.1, d.scan_cons_of_step hopen, d.scan_cons_of_step hclose,
            d.scan_cons_of_step (hstep next _ hself.1 hself.2)]
          simp
        · rw [d.scan_cons_of_step (hstep c read hquote hescape)]
  · exact d.scan_inside_doubled .single read text fun c _ hescape => by simp [escapesIn, hd] at hescape

theorem IsPart.standardLiteral {text : String} (h : d.isMySqlLike = true → keepsBackslashes text.toList = true) :
    d.IsPart false [.standardLiteral text] := by
  have hscan := fun read => scan_inside_standard h read
  have htext : d.characters [.standardLiteral text] =
      d.markOf .single :: doubled '\'' text.toList ++ [d.markOf .single] := by
    simp [renderPiece, Dialect.standardLiteral, markOf]
  have htokens : d.tokens [.standardLiteral text] = [.literal text.toList] := by
    rw [tokens, htext]
    exact d.lexemes_quotation d.knows_single hscan
  refine of_isPlainText ⟨?_, ?_⟩ ?_
  · rw [htext]
    exact (Complete.of_quotation d d.knows_single hscan).settles
  · rw [htokens]
    exact List.forall_mem_singleton.2 ⟨rfl, fun h => by cases h⟩
  · rw [htokens]
    exact List.forall_mem_singleton.2 rfl

end Dialect

/-- Whether the character stands in front of all letters and is no parenthesis. -/
def Lexer.isLetterless (c : Char) : Bool := c < 'A' && c != '(' && c != ')'

namespace Lexeme

variable {t : Lexeme}

/-- A word of digits and marks is no keyword. -/
theorem isKeyword_of_isLetterless (h : t.All isLetterless) (word : String) (hword : ∃ c ∈ word.toList, ¬c < 'A') :
    t.isKeyword word = false := by
  cases t with
  | word text =>
    refine beq_eq_false_iff_ne.2 fun heq => ?_
    have hlow : ∀ c ∈ text, c < 'A' := fun c hc => by
      have := h c hc
      simp only [isLetterless, Bool.and_eq_true, decide_eq_true_eq] at this
      exact this.1.1
    have hupper : text.map Char.toUpper = text :=
      (List.map_congr_left fun c hc => dif_neg fun hletter =>
        UInt32.not_le.2 (Char.lt_trans (hlow c hc) (by decide : 'A' < 'a')) hletter.1).trans (List.map_id' text)
    obtain ⟨c, hc, hletter⟩ := hword
    rw [← heq, hupper] at hc
    exact hletter (hlow c hc)
  | name | literal | symbol | unclosed => rfl

theorem role_of_isLetterless (h : t.All isLetterless) : t.role = .other := by
  cases t with
  | name | literal | unclosed => rfl
  | symbol c =>
    have hc : isLetterless c = true := h
    simp only [isLetterless, Bool.and_eq_true, bne_iff_ne] at hc
    simp [role, hc.1.2, hc.2]
  | word text =>
    have hand := isKeyword_of_isLetterless h "AND" ⟨'A', by decide, by decide⟩
    have hor := isKeyword_of_isLetterless h "OR" ⟨'O', by decide, by decide⟩
    have hnot := isKeyword_of_isLetterless h "NOT" ⟨'N', by decide, by decide⟩
    simp only [isKeyword, beq_eq_false_iff_ne] at hand hor hnot
    rw [role]
    split
    · exact absurd ‹_› hand
    · exact absurd ‹_› hor
    · exact absurd ‹_› hnot
    · rfl

end Lexeme

namespace Lexer

theorem isLetterless_of_isNumeralChar {c : Char} (h : isNumeralChar c = true) : isLetterless c = true := by
  have hlow : c < 'A' := by
    simp only [isNumeralChar, Char.isDigit, Bool.or_eq_true, Bool.and_eq_true, decide_eq_true_eq, beq_iff_eq] at h
    rcases h with ⟨_, hdigit⟩ | rfl
    · exact UInt32.lt_of_le_of_lt hdigit (by decide)
    · decide
  have hopening : c ≠ '(' := by
    rintro rfl
    exact absurd h (by decide)
  have hclosing : c ≠ ')' := by
    rintro rfl
    exact absurd h (by decide)
  simp [isLetterless, hlow, hopening, hclosing]

theorem isLetterless_of_isSigned {text : List Char} (h : IsSigned text) : ∀ c ∈ text, isLetterless c = true := by
  rcases h with h | ⟨rest, rfl, h⟩
  · exact fun c hc => isLetterless_of_isNumeralChar (h.chars c hc)
  · exact List.forall_mem_cons.2 ⟨by decide, fun c hc => isLetterless_of_isNumeralChar (h.chars c hc)⟩

end Lexer

namespace Dialect

variable {d : Dialect} {p q : Bool} {sql first second : Sql}

theorem isKeyword_of_mem_tokens {words : String} (h : ∀ c ∈ words.toList, isLetterless c = true) :
    ∀ t ∈ d.tokens [.word words], t.isKeyword "PRIMARY" = false := by
  intro t ht
  rw [tokens_word] at ht
  exact isKeyword_of_isLetterless (all_lexemes h t ht) "PRIMARY" ⟨'P', by decide, by decide⟩

theorem IsPart.number {text : String} (h : IsSigned text.toList) : d.IsPart false [.word text] :=
  of_isPlainText (.number h) (isKeyword_of_mem_tokens (isLetterless_of_isSigned h))

theorem IsPart.float (x : Binary64) : d.IsPart false [.word x.toText] := by
  by_cases hfinite : x.isFinite = true
  · exact .number (isSigned_toText hfinite)
  · have htext : x.toText = "NaN" ∨ x.toText = "inf" ∨ x.toText = "-inf" := by
      unfold Binary64.toText Binary64.signed
      rw [if_neg hfinite]
      split
      · exact .inl rfl
      · split
        · exact .inr (.inr rfl)
        · exact .inr (.inl rfl)
    rcases htext with htext | htext | htext <;> rw [htext] <;> exact .of_reads (by cases d <;> decide)

end Dialect

end EntitySql
