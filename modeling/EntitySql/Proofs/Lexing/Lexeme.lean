import EntitySql.Sql
/-!
# Lexemes

How a database splits a statement into tokens: bare words, quoted names, string literals and
symbols, with blanks and comments between them. The lexer is a machine that reads one character at a
time, so the tokens of a text are those of its parts as soon as the parts meet at the end of a
token.

A quote inside quotes is written twice. Where the grammar is MySQL's a backslash escapes the next
character of a literal and double quotes enclose literals too; elsewhere a backslash stands for
itself.
-/

namespace EntitySql

/-- A token of SQL text. -/
inductive Lexeme
  /-- A keyword, a bare name or a number. -/
  | word (text : List Char)
  /-- A quoted name with its doubled quotes undone. -/
  | name (identifier : List Char)
  /-- A string literal with its escapes undone. -/
  | literal (content : List Char)
  /-- A single character of punctuation. -/
  | symbol (c : Char)
  /-- Quotes or a comment that the text leaves open. -/
  | unclosed
deriving DecidableEq, Repr

namespace Lexer

/-- What stands between two quotes. -/
inductive Quotation
  /-- A name. -/
  | name
  /-- A literal between single quotes. -/
  | single
  /-- A literal between double quotes. -/
  | double
deriving DecidableEq, Repr

/-- The token of a quotation. -/
def Quotation.lexeme : Quotation → List Char → Lexeme
  | .name, content => .name content
  | .single, content | .double, content => .literal content

/-- Where in the text the lexer stands. -/
inductive Mode
  /-- Between two tokens. -/
  | blank
  /-- Inside a word, of which `read` has been read. -/
  | word (read : List Char)
  /-- Behind a minus that may open a comment. -/
  | dash
  /-- Behind two minuses that open a comment only before a blank. -/
  | dashes
  /-- Behind a slash that may open a comment. -/
  | slash
  /-- Inside a comment that the end of the line closes. -/
  | lineComment
  /-- Inside `depth + 1` comments that are closed by themselves, behind the character `last`. -/
  | blockComment (depth : Nat) (last : Char)
  /-- Inside quotes. -/
  | inside (q : Quotation) (read : List Char)
  /-- Inside quotes and behind a backslash. -/
  | escaped (q : Quotation) (read : List Char)
  /-- Behind a quote that either ends the quotation or is the first of two. -/
  | closing (q : Quotation) (read : List Char)
deriving DecidableEq, Repr

/-- The tokens that would be complete if nothing followed. -/
def Mode.pending : Mode → List Lexeme
  | .blank | .lineComment => []
  | .word read => [.word read]
  | .dash => [.symbol '-']
  | .dashes => [.symbol '-', .symbol '-']
  | .slash => [.symbol '/']
  | .blockComment _ _ | .inside _ _ | .escaped _ _ => [.unclosed]
  | .closing q read => [q.lexeme read]

/-- Whether the character separates tokens. -/
def isBlank (c : Char) : Bool := c.isWhitespace || c == '\x0b' || c == '\x0c'

/-- Whether the character belongs to a bare word. -/
def isWordChar (c : Char) : Bool := c.isAlphanum || c == '_' || c == '$' || 128 ≤ c.toNat

end Lexer

namespace Dialect

open Lexer

/-- The character on either side of a quotation. -/
def markOf (d : Dialect) : Quotation → Char
  | .name => d.quoteChar
  | .single => '\''
  | .double => '"'

/-- The quotation that a character opens. -/
def quotation? (d : Dialect) (c : Char) : Option Quotation :=
  if c = d.quoteChar then some .name
  else if c = '\'' then some .single
  else if c = '"' && d.isMySqlLike then some .double
  else none

/-- Whether the dialect knows the quotation. -/
def knows (d : Dialect) (q : Quotation) : Bool := d.quotation? (d.markOf q) = some q

/-- Whether a token ends here if nothing or a blank follows. -/
def isSettled (d : Dialect) : Mode → Bool
  | .blank | .word _ => true
  | .closing q _ => d.knows q
  | _ => false

/-- Whether a backslash escapes the next character of the quotation. -/
def escapesIn (d : Dialect) (q : Quotation) : Bool := d.isMySqlLike && q ≠ .name

/-- What a backslash and the character behind it stand for. -/
def unescape : Char → List Char
  | '0' => ['\x00']
  | 'b' => ['\x08']
  | 'n' => ['\n']
  | 'r' => ['\r']
  | 't' => ['\t']
  | 'Z' => ['\x1a']
  | '%' => ['\\', '%']
  | '_' => ['\\', '_']
  | c => [c]

/-- The mode behind a character that does not belong to the token before it, with the tokens that it
completes at once. -/
def start (d : Dialect) (c : Char) : List Lexeme × Mode :=
  if isBlank c then ([], .blank)
  else
    match d.quotation? c with
    | some q => ([], .inside q [])
    | none =>
      if isWordChar c then ([], .word [c])
      else if c = '-' then ([], .dash)
      else if c = '/' then ([], .slash)
      else if c = '#' && d.isMySqlLike then ([], .lineComment)
      else ([.symbol c], .blank)

/-- Completes the token before the character and goes on with the character. -/
def restart (d : Dialect) (m : Mode) (c : Char) : List Lexeme × Mode :=
  (m.pending ++ (d.start c).1, (d.start c).2)

/-- Reads one character: the tokens that it completes and the mode behind it. -/
def step (d : Dialect) (m : Mode) (c : Char) : List Lexeme × Mode :=
  match m with
  | .blank => d.start c
  | .word read => if isWordChar c then ([], .word (read ++ [c])) else d.restart m c
  | .dash =>
    if c = '-' then ([], if d.isMySqlLike then .dashes else .lineComment) else d.restart m c
  | .dashes =>
    if c = '-' then ([.symbol '-'], .dashes)
    else if c = '\n' then ([], .blank)
    else if isBlank c then ([], .lineComment)
    else d.restart m c
  | .slash => if c = '*' then ([], .blockComment 0 ' ') else d.restart m c
  | .lineComment => ([], if c = '\n' then .blank else .lineComment)
  | .blockComment depth last =>
    if last = '*' && c = '/' then
      match depth with
      | 0 => ([], .blank)
      | outer + 1 => ([], .blockComment outer ' ')
    else if last = '/' && c = '*' && d = .postgres then ([], .blockComment (depth + 1) ' ')
    else ([], .blockComment depth c)
  | .inside q read =>
    if c = d.markOf q then ([], .closing q read)
    else if c = '\\' && d.escapesIn q then ([], .escaped q read)
    else ([], .inside q (read ++ [c]))
  | .escaped q read => ([], .inside q (read ++ unescape c))
  | .closing q read => if c = d.markOf q then ([], .inside q (read ++ [c])) else d.restart m c

/-- Reads characters one after the other. -/
def scan (d : Dialect) (m : Mode) : List Char → List Lexeme × Mode
  | [] => ([], m)
  | c :: rest =>
    ((d.step m c).1 ++ (d.scan (d.step m c).2 rest).1, (d.scan (d.step m c).2 rest).2)

/-- The tokens of a text. -/
def lexemes (d : Dialect) (text : List Char) : List Lexeme :=
  (d.scan .blank text).1 ++ (d.scan .blank text).2.pending

/-- A text that leaves the lexer at the end of a token, with no quotes and no comment open. -/
def Settles (d : Dialect) (text : List Char) : Prop := d.isSettled (d.scan .blank text).2 = true

instance (d : Dialect) (text : List Char) : Decidable (d.Settles text) := by
  unfold Settles
  infer_instance

/-- The characters of a statement. -/
def characters (d : Dialect) (sql : Sql) : List Char := sql.flatMap d.renderPiece

@[simp]
theorem toList_render (d : Dialect) (sql : Sql) : (d.render sql).toList = d.characters sql := by
  simp [render, characters]

@[simp]
theorem characters_nil (d : Dialect) : d.characters [] = [] := rfl

@[simp]
theorem characters_cons (d : Dialect) (piece : Sql.Piece) (sql : Sql) :
    d.characters (piece :: sql) = d.renderPiece piece ++ d.characters sql := rfl

@[simp]
theorem characters_append (d : Dialect) (first second : Sql) :
    d.characters (first ++ second) = d.characters first ++ d.characters second := by
  simp [characters]

variable (d : Dialect)

@[simp]
theorem scan_nil (m : Mode) : d.scan m [] = ([], m) := rfl

/-- A character that completes no token only changes the mode. -/
theorem scan_cons_of_step {m next : Mode} {c : Char} (h : d.step m c = ([], next))
    (rest : List Char) : d.scan m (c :: rest) = d.scan next rest := by
  simp [scan, h]

/-- Reading a text in two parts: the second one starts where the first one ends. -/
theorem scan_append (m : Mode) (first second : List Char) :
    d.scan m (first ++ second) =
      ((d.scan m first).1 ++ (d.scan (d.scan m first).2 second).1,
        (d.scan (d.scan m first).2 second).2) := by
  induction first generalizing m with
  | nil => simp
  | cons c rest ih => simp [scan, ih]

/-! ## Where texts meet -/

/-- A character that ends every token before it: neither part of a word nor any quote. -/
def isBreak (c : Char) : Bool :=
  !isWordChar c && c != '\'' && c != '"' && c != '`'

theorem ne_markOf_of_isBreak {c : Char} (hc : isBreak c = true) (q : Quotation) :
    c ≠ d.markOf q := by
  intro h
  subst h
  cases d <;> cases q <;> exact absurd hc (by decide)

theorem step_of_isBreak {m : Mode} (hm : d.isSettled m = true) {c : Char} (hc : isBreak c = true) :
    d.step m c = d.restart m c := by
  have hword : isWordChar c = false := by
    simp only [isBreak, Bool.and_eq_true, Bool.not_eq_true'] at hc
    exact hc.1.1.1
  cases m with
  | blank => simp [step, restart, Mode.pending]
  | word read => simp [step, hword]
  | closing q read => simp [step, d.ne_markOf_of_isBreak hc q]
  | dash | dashes | slash | lineComment | blockComment | inside | escaped =>
    simp [isSettled] at hm

/-- Behind a token a text that opens with a break is read as it is by itself. -/
theorem scan_of_isBreak {m : Mode} (hm : d.isSettled m = true) {c : Char} (hc : isBreak c = true)
    (rest : List Char) :
    d.scan m (c :: rest) =
      (m.pending ++ (d.scan .blank (c :: rest)).1, (d.scan .blank (c :: rest)).2) := by
  have hblank : d.step .blank c = d.start c := rfl
  simp only [scan, d.step_of_isBreak hm hc, hblank, restart, List.append_assoc]

/-- The tokens of two texts that meet at a break. -/
theorem lexemes_append_of_isBreak {first : List Char} (hfirst : d.Settles first) {c : Char}
    (hc : isBreak c = true) (rest : List Char) :
    d.lexemes (first ++ c :: rest) = d.lexemes first ++ d.lexemes (c :: rest) := by
  simp only [lexemes, scan_append, d.scan_of_isBreak hfirst hc, List.append_assoc]

theorem settles_append_of_isBreak {first : List Char} (hfirst : d.Settles first) {c : Char}
    (hc : isBreak c = true) {rest : List Char} (hrest : d.Settles (c :: rest)) :
    d.Settles (first ++ c :: rest) := by
  rw [Settles, scan_append, d.scan_of_isBreak hfirst hc]
  exact hrest

/-- The tokens of two texts the first of which leaves the lexer between two tokens. -/
theorem lexemes_append_of_blank {first : List Char} (hfirst : (d.scan .blank first).2 = .blank)
    (second : List Char) :
    d.lexemes (first ++ second) = d.lexemes first ++ d.lexemes second := by
  simp only [lexemes, scan_append, hfirst, Mode.pending, List.append_nil, List.append_assoc]

theorem settles_append_of_blank {first : List Char} (hfirst : (d.scan .blank first).2 = .blank)
    {second : List Char} (hsecond : d.Settles second) : d.Settles (first ++ second) := by
  rw [Settles, scan_append, hfirst]
  exact hsecond

end Dialect

end EntitySql
