import EntitySql.Proofs.Lexing.Literal
import EntitySql.Proofs.Lexing.Tokens
import EntitySql.Proofs.TableText
import EntitySql.Schema.Ddl
/-!
# What is quoted is read back

What callers name and store goes into statements in four encodings: as a string literal, as one identifier, as a
path of identifiers and as a binary literal. The dialect that an encoding is written for reads it back as what it
was written from, and stops right behind it (`Dialect.readsBack_quoted`). What follows may be anything that does
not begin with the quote: that would be read as the second of two quotes inside.
-/

namespace EntitySql

open Lexer

/-! ## Hexadecimal digits -/

namespace Text

theorem hexValue?_hexDigitUpper : ∀ n < 16, hexValue? (hexDigitUpper n) = some n := by decide

theorem bytesOfHex?_hexOfBytes (bytes : List UInt8) : bytesOfHex? (hexOfBytes bytes).toList = some bytes := by
  rw [hexOfBytes, String.toList_ofList]
  induction bytes with
  | nil => rfl
  | cons byte rest ih =>
    have hbyte : byte.toNat < 256 := byte.toNat_lt
    have hsum : byte.toNat / 16 * 16 + byte.toNat % 16 = byte.toNat := Nat.div_add_mod' _ _
    rw [List.flatMap_cons, List.cons_append, List.cons_append, List.nil_append, bytesOfHex?,
      hexValue?_hexDigitUpper _ (by omega), hexValue?_hexDigitUpper _ (by omega), ih]
    change some (UInt8.ofNat (byte.toNat / 16 * 16 + byte.toNat % 16) :: rest) = some (byte :: rest)
    rw [hsum, UInt8.ofNat_toNat]

end Text

namespace Dialect

/-! ## Readers -/

/-- Reads a quoted name or a string literal from its opening quote: the token, and what follows. -/
def readQuotation? (d : Dialect) : List Char → Option (Lexeme × List Char)
  | [] => none
  | c :: rest => do
    let q ← d.quotation? c
    let (content, after) ← d.takeQuoted? (.inside q []) rest
    return (q.lexeme content, after)

/-- Whether the character is a hexadecimal digit. -/
def isHexDigit (c : Char) : Bool := (Text.hexValue? c).isSome

/-- Reads a binary literal: its bytes, and what follows. PostgreSQL takes the bytes from the content of a string
literal that begins with a backslash and an `x`. Elsewhere their digits stand between quotes behind an `X`. -/
def readBytes? : Dialect → List Char → Option (List UInt8 × List Char)
  | postgres, text =>
    match postgres.readQuotation? text with
    | some (.literal ('\\' :: 'x' :: digits), after) => (Text.bytesOfHex? digits).map (·, after)
    | _ => none
  | mysql, 'X' :: '\'' :: text | mariadb, 'X' :: '\'' :: text | sqlite, 'X' :: '\'' :: text =>
    match text.dropWhile isHexDigit with
    | '\'' :: after => (Text.bytesOfHex? (text.takeWhile isHexDigit)).map (·, after)
    | _ => none
  | _, _ => none

/-- Whether the text is read as one token that ends with it, and what follows as it is by itself, unless that begins
with the quote. -/
structure ReadsToken (d : Dialect) (quote : Char) (text : List Char) (token : Lexeme) : Prop where
  stops : ∀ after : List Char, after.head? ≠ some quote → d.readQuotation? (text ++ after) = some (token, after)
  lexemes : ∀ after : List Char, after.head? ≠ some quote → d.lexemes (text ++ after) = token :: d.lexemes after

variable (d : Dialect)

/-! ## Quotations -/

theorem step_inside (q : Quotation) (read : List Char) (c : Char) :
    ∃ read', (d.step (.inside q read) c).2 = .inside q read' ∨
      (d.step (.inside q read) c).2 = .escaped q read' ∨ (d.step (.inside q read) c).2 = .closing q read' := by
  rw [step]
  split
  · exact ⟨read, .inr (.inr rfl)⟩
  · split
    · exact ⟨read, .inr (.inl rfl)⟩
    · exact ⟨read ++ [c], .inl rfl⟩

/-- Inside quotes the reader goes as far as the lexer does. -/
theorem takeQuoted?_append {q : Quotation} {m : Mode} {body content : List Char}
    (hm : ∃ read, m = .inside q read ∨ m = .escaped q read ∨ m = .closing q read)
    (hscan : d.scan m body = ([], .inside q content)) (rest : List Char) :
    d.takeQuoted? m (body ++ rest) = d.takeQuoted? (.inside q content) rest := by
  induction body generalizing m with
  | nil =>
    rw [scan_nil, Prod.mk.injEq] at hscan
    rw [hscan.2, List.nil_append]
  | cons c body ih =>
    have hnext : (d.scan (d.step m c).2 body) = ([], .inside q content) := by
      simp only [scan, Prod.mk.injEq, List.append_eq_nil_iff] at hscan
      exact Prod.ext hscan.1.2 hscan.2
    obtain ⟨read, rfl | rfl | rfl⟩ := hm
    · exact ih (d.step_inside q read c) hnext
    · exact ih ⟨_, .inl rfl⟩ hnext
    · by_cases hc : c = d.markOf q
      · rw [List.cons_append, takeQuoted?, if_pos hc]
        rw [step, if_pos hc] at hnext
        exact ih ⟨_, .inl rfl⟩ hnext
      · -- The quotation would be a token, and the lexer completes none.
        have hdone := congrArg Prod.fst hscan
        simp [scan, step, if_neg hc, restart, Mode.pending] at hdone

theorem lexemes_closing {q : Quotation} (read : List Char) {after : List Char}
    (hafter : after.head? ≠ some (d.markOf q)) :
    (d.scan (.closing q read) after).1 ++ (d.scan (.closing q read) after).2.pending =
      q.lexeme read :: d.lexemes after := by
  cases after with
  | nil => rfl
  | cons c rest =>
    have hc : c ≠ d.markOf q := fun hsame => hafter (congrArg some hsame)
    have hstep : d.step (.closing q read) c = d.restart (.closing q read) c := if_neg hc
    have hblank : d.step .blank c = d.start c := rfl
    simp only [Dialect.lexemes, scan, hstep, hblank, restart, Mode.pending, List.cons_append, List.nil_append]

/-- A quotation is one token. -/
theorem ReadsToken.of_quotation {q : Quotation} (hq : d.knows q = true) {body content : List Char}
    (hbody : ∀ read, d.scan (.inside q read) body = ([], .inside q (read ++ content))) :
    d.ReadsToken (d.markOf q) (d.markOf q :: body ++ [d.markOf q]) (q.lexeme content) where
  stops after hafter := by
    have hopens : d.quotation? (d.markOf q) = some q := by simpa [knows] using hq
    have htake : d.takeQuoted? (.inside q []) (body ++ (d.markOf q :: after)) = some (content, after) :=
      (d.takeQuoted?_append ⟨[], .inl rfl⟩ (hbody []) _).trans (d.takeQuoted?_close content hafter)
    rw [List.append_assoc, List.cons_append, List.singleton_append, readQuotation?, hopens]
    simp [htake]
  lexemes after hafter := by
    have hscan := d.scan_quotation_of_ne hq (m := .blank) rfl (by simp) hbody
    rw [Dialect.lexemes, scan_append, hscan, ← d.lexemes_closing content hafter]
    rfl

theorem readsToken_quoteText (text : String) : d.ReadsToken '\'' (d.quoteText text) (.literal text.toList) := by
  rw [quoteText_eq]
  exact ReadsToken.of_quotation d d.knows_single fun read => d.scan_literalBody read text.toList

theorem readsToken_quoteName (name : String) :
    d.ReadsToken d.quoteChar (d.quoteName name) (.name name.toList) :=
  ReadsToken.of_quotation d d.knows_name fun read =>
    d.scan_inside_doubled .name read name.toList (by simp [escapesIn])

/-! ## Paths -/

theorem lexemes_dot (rest : List Char) : d.lexemes ('.' :: rest) = .symbol '.' :: d.lexemes rest := by
  have hdot : d.step .blank '.' = ([.symbol '.'], .blank) := by cases d <;> rfl
  simp only [lexemes, scan, hdot, List.cons_append, List.nil_append]

/-- The identifiers of a path are read one after the other. -/
theorem lexemes_dotted (part : String) (rest : List String) {after : List Char}
    (hafter : after.head? ≠ some d.quoteChar) :
    d.lexemes (d.characters (Sql.dotted (part :: rest)) ++ after) =
      ((part :: rest).map fun part => Lexeme.name part.toList).intersperse (.symbol '.') ++ d.lexemes after := by
  induction rest generalizing part with
  | nil =>
    have hcharacters : d.characters (Sql.dotted [part]) = d.quoteName part := List.append_nil _
    rw [hcharacters, (d.readsToken_quoteName part).lexemes after hafter]
    rfl
  | cons next rest ih =>
    have hdot : ('.' :: (d.characters (Sql.dotted (next :: rest)) ++ after)).head? ≠ some d.quoteChar := by
      rw [List.head?_cons]
      cases d <;> decide
    have hcharacters : d.characters (Sql.dotted (part :: next :: rest)) ++ after =
        d.quoteName part ++ '.' :: (d.characters (Sql.dotted (next :: rest)) ++ after) := by
      rw [Sql.dotted_cons_cons, characters_cons, characters_cons, List.append_assoc, List.append_assoc]
      rfl
    rw [hcharacters, (d.readsToken_quoteName part).lexemes _ hdot, lexemes_dot, ih]
    rfl

/-! ## Bytes -/

theorem isHexDigit_of_mem_hexOfBytes {bytes : List UInt8} {c : Char}
    (hc : c ∈ (Text.hexOfBytes bytes).toList) : isHexDigit c = true := by
  rw [Text.hexOfBytes, String.toList_ofList, List.mem_flatMap] at hc
  obtain ⟨byte, -, hc⟩ := hc
  have hbyte : byte.toNat < 256 := byte.toNat_lt
  rcases List.mem_cons.1 hc with rfl | hc
  · rw [isHexDigit, Text.hexValue?_hexDigitUpper _ (by omega), Option.isSome_some]
  · rw [List.mem_singleton.1 hc, isHexDigit, Text.hexValue?_hexDigitUpper _ (by omega), Option.isSome_some]

theorem readBytes?_quoteBytes (bytes : List UInt8) {after : List Char} (hafter : after.head? ≠ some '\'') :
    d.readBytes? (d.quoteBytes bytes ++ after) = some (bytes, after) := by
  have hnone {c : Char} (hc : isHexDigit c = false) : c ∉ (Text.hexOfBytes bytes).toList := by
    intro hmem
    rw [isHexDigit_of_mem_hexOfBytes hmem] at hc
    cases hc
  -- Behind an introducing `X` the digits end where the quote stands.
  have hdigits : ∀ rest : List Char,
      ((Text.hexOfBytes bytes).toList ++ '\'' :: rest).takeWhile isHexDigit = (Text.hexOfBytes bytes).toList ∧
        ((Text.hexOfBytes bytes).toList ++ '\'' :: rest).dropWhile isHexDigit = '\'' :: rest := by
    intro rest
    have hquote : isHexDigit '\'' = false := rfl
    rw [List.takeWhile_append_of_pos fun _ => isHexDigit_of_mem_hexOfBytes,
      List.dropWhile_append_of_pos fun _ => isHexDigit_of_mem_hexOfBytes]
    simp [hquote]
  cases d with
  | postgres =>
    have hquote : '\'' ∉ '\\' :: 'x' :: (Text.hexOfBytes bytes).toList := by
      simp [hnone (c := '\'') rfl]
    have hread : postgres.readQuotation? (quoteBytes .postgres bytes ++ after) =
        some (.literal ('\\' :: 'x' :: (Text.hexOfBytes bytes).toList), after) :=
      (ReadsToken.of_quotation .postgres (knows_single .postgres)
        (scan_inside_single .postgres hquote (.inr rfl))).stops after hafter
    simp only [readBytes?, hread, Text.bytesOfHex?_hexOfBytes, Option.map_some]
  | mysql | mariadb | sqlite =>
    rw [quoteBytes]
    simp only [List.cons_append, List.append_assoc, List.nil_append, readBytes?, (hdigits after).1, (hdigits after).2,
      Text.bytesOfHex?_hexOfBytes, Option.map_some]

/-! ## All encodings -/

theorem lexemes_path {name : String} (hname : name ≠ "") {after : List Char}
    (hafter : after.head? ≠ some d.quoteChar) :
    d.lexemes (d.characters (Sql.path name) ++ after) =
      ((name.toList.splitOn '.').map Lexeme.name).intersperse (.symbol '.') ++ d.lexemes after := by
  obtain ⟨part, rest, hparts, hpath⟩ := Sql.exists_path_eq hname
  rw [hparts, hpath, d.lexemes_dotted _ _ hafter]
  simp [Function.comp_def]

/-- A string literal is one token that holds the text, and an identifier is one token that holds the name. A path is
the parts of the name between its dots, each as a token of its own, and a binary literal is read as its bytes. The
name of a statement that changes the schema is spelled as an identifier. -/
theorem readsBack_quoted (text : String) {name : String} (hname : name ≠ "") (bytes : List UInt8) :
    d.ReadsToken '\'' (d.render [.literal text]).toList (.literal text.toList) ∧
      d.ReadsToken d.quoteChar (d.render (Sql.identifier name)).toList (.name name.toList) ∧
      (∀ after : List Char, after.head? ≠ some d.quoteChar →
        d.lexemes ((d.render (Sql.path name)).toList ++ after) =
          ((name.toList.splitOn '.').map Lexeme.name).intersperse (.symbol '.') ++ d.lexemes after) ∧
      (∀ after : List Char, after.head? ≠ some '\'' →
        d.readBytes? ((d.render [.bytes bytes]).toList ++ after) = some (bytes, after)) ∧
      d.render (Ddl.quoted name) = d.render (Sql.identifier name) := by
  have hidentifier : Sql.identifier name = [.name name] := Sql.identifier_eq hname
  have hcharacters : ∀ piece : Sql.Piece, (d.render [piece]).toList = d.renderPiece piece := fun piece =>
    (d.toList_render [piece]).trans (List.append_nil _)
  rw [hidentifier, hcharacters, hcharacters, hcharacters, toList_render]
  exact ⟨d.readsToken_quoteText text, d.readsToken_quoteName name, fun _ => d.lexemes_path hname,
    fun _ => d.readBytes?_quoteBytes bytes, rfl⟩

/-- Neither a backslash in front of a quote nor a quote beside a dot ends anything early. -/
theorem readsBack_quoted_backslash :
    let text := "\\' OR 1 = 1 -- "
    let name := "`a`.b"
    let after := ", `c`".toList
    name ≠ "" ∧ after.head? ≠ some '\'' ∧ after.head? ≠ some mysql.quoteChar ∧
      mysql.readQuotation? ((mysql.render [.literal text]).toList ++ after) =
        some (.literal text.toList, after) ∧
      mysql.readQuotation? ((mysql.render (Sql.identifier name)).toList ++ after) =
        some (.name name.toList, after) ∧
      mysql.lexemes ((mysql.render (Sql.path name)).toList ++ after) =
        [.name "`a`".toList, .symbol '.', .name "b".toList, .symbol ',', .name "c".toList] ∧
      mysql.readBytes? ((mysql.render [.bytes [0xDE, 0xAD]]).toList ++ after) =
        some ([0xDE, 0xAD], after) := by
  intro text name after
  have hname : name ≠ "" := by decide
  have hquote : after.head? ≠ some '\'' := by decide
  have htick : after.head? ≠ some mysql.quoteChar := by decide
  obtain ⟨hliteral, hidentifier, hpath, hbytes, -⟩ := readsBack_quoted mysql text hname [0xDE, 0xAD]
  refine ⟨hname, hquote, htick, hliteral.stops after hquote, hidentifier.stops after htick, ?_,
    hbytes after hquote⟩
  rw [hpath after htick]
  decide +kernel

end Dialect

end EntitySql
