import EntitySql.Compile.Filter
import EntitySql.Proofs.Ensures
import EntitySql.Proofs.Reading.Inert
import EntitySql.Proofs.Redaction.Input
/-!
# Comparisons are fragments

Whatever is compared by whichever operator, the text of a comparison has no connective outside
parentheses, and neither has a text search. A reader takes it for one fragment; only the comparison
of a column without a name by `NOT IN` opens with a denial.

Raw SQL may stand for a value or compute a column. It is taken to be closed, which says that it has
no connective outside parentheses either.
-/

namespace EntitySql

open Lexeme Lexer

/-! ## Tests -/

/-- A fragment, or the denial of one. -/
def IsTest (ts : List Lexeme) : Prop :=
  IsFragment ts ∨ ∃ denial rest, ts = denial :: rest ∧ denial.role = .negation ∧ IsFragment rest

/-- The formula of a test. -/
def Formula.ofTest : List Lexeme → Formula
  | [] => .atom []
  | t :: rest => if t.role = .negation then .not (.atom rest) else .atom (t :: rest)

/-- A closed text is a fragment if its first token has no role. -/
theorem Lexeme.IsFragment.of_head {t : Lexeme} {ts : List Lexeme} (h : IsUnjoined (t :: ts))
    (ht : t.role = .other) : IsFragment (t :: ts) := by
  refine ⟨h, ⟨t, ts, rfl, by simp [ht]⟩, ?_⟩
  rintro ⟨opening, body, closing, roles, hall, hopening, _, _⟩
  rw [← (List.cons.inj hall).1, ht] at hopening
  cases hopening

/-- Tokens without a role are a fragment. -/
theorem Lexeme.IsFragment.of_role {ts : List Lexeme} (h : ∀ t ∈ ts, t.role = .other)
    (hne : ts ≠ []) : IsFragment ts := by
  obtain ⟨t, rest, rfl⟩ := List.exists_cons_of_ne_nil hne
  exact .of_head (.of_role h) (h t (.head rest))

namespace IsTest

theorem reads {ts : List Lexeme} (h : IsTest ts) : Reads .operand ts (.ofTest ts) := by
  rcases h with h | ⟨denial, rest, rfl, hdenial, h⟩
  · obtain ⟨t, rest, rfl, ht⟩ := h.head
    rw [Formula.ofTest, if_neg ht]
    exact .atom h
  · rw [Formula.ofTest, if_pos hdenial]
    exact .negation hdenial (.atom h)

theorem isUnjoined {ts : List Lexeme} (h : IsTest ts) : IsUnjoined ts := by
  rcases h with h | ⟨denial, rest, rfl, hdenial, h⟩
  · exact h.isUnjoined
  · obtain ⟨roles, hroles, hfree⟩ := h.isUnjoined
    refine ⟨_, outline_cons_of_role hdenial (by decide) (by decide) hroles, ?_⟩
    simpa [Role.isConnective] using hfree

/-- Tokens without a role in front of a test belong to it. -/
theorem append {ts us : List Lexeme} (hts : ∀ t ∈ ts, t.role = .other) (h : IsTest us) :
    IsTest (ts ++ us) := by
  cases ts with
  | nil => exact h
  | cons t rest =>
    exact .inl (.of_head ((IsUnjoined.of_role hts).append h.isUnjoined) (hts t (.head rest)))

end IsTest

/-! ## Closed texts -/

namespace Dialect

/-- A text without connectives outside parentheses that leaves the lexer at the end of a token. -/
structure IsPhrase (d : Dialect) (text : List Char) : Prop where
  settles : d.Settles text
  isUnjoined : IsUnjoined (d.lexemes text)

theorem IsInert.isPhrase {d : Dialect} {text : List Char} (h : d.IsInert text) : d.IsPhrase text :=
  ⟨h.settles, .of_role h.roles⟩

/-- What may stand behind a column: a text that begins a token of its own and is a test if nothing
stands in front of it. -/
structure IsTail (d : Dialect) (text : List Char) : Prop where
  opens : ∃ c rest, text = c :: rest ∧ isBreak c = true
  settles : d.Settles text
  isTest : IsTest (d.lexemes text)

/-- A text that compares a column: it is closed if the text of the column is, and a test if that is
inert. -/
structure IsComparison (d : Dialect) (column text : List Char) : Prop where
  isPhrase : d.IsPhrase column → d.IsPhrase text
  isTest : d.IsInert column → IsTest (d.lexemes text)

theorem IsTail.isComparison {d : Dialect} {column tail : List Char} (h : d.IsTail tail) :
    d.IsComparison column (column ++ tail) := by
  obtain ⟨c, rest, rfl, hbreak⟩ := h.opens
  constructor
  · intro hcolumn
    refine ⟨d.settles_append_of_isBreak hcolumn.settles hbreak h.settles, ?_⟩
    rw [d.lexemes_append_of_isBreak hcolumn.settles hbreak]
    exact hcolumn.isUnjoined.append h.isTest.isUnjoined
  · intro hcolumn
    rw [d.lexemes_append_of_isBreak hcolumn.settles hbreak]
    exact h.isTest.append hcolumn.roles

/-- A text that is a test by itself compares no column. -/
theorem IsComparison.of_isTest {d : Dialect} {column text : List Char} (hsettles : d.Settles text)
    (h : IsTest (d.lexemes text)) : d.IsComparison column text :=
  ⟨fun _ => ⟨hsettles, h.isUnjoined⟩, fun _ => h⟩

variable {d : Dialect} {first second text : List Char}

namespace IsPhrase

theorem gap {gap : List Char} (hfirst : d.IsPhrase first) (hgap : d.isInertGap gap = true)
    (hsecond : d.IsPhrase second) : d.IsPhrase (first ++ (gap ++ second)) := by
  simp only [isInertGap, Bool.and_eq_true, List.all_eq_true, beq_iff_eq] at hgap
  refine ⟨settles_gap hfirst.settles hgap.1 hsecond.settles, ?_⟩
  rw [lexemes_gap hfirst.settles hgap.1]
  exact hfirst.isUnjoined.append ((IsUnjoined.of_role hgap.2).append hsecond.isUnjoined)

/-- Closed texts with an inert gap between them. -/
theorem intercalate {separator : Sql} (hgap : d.isInertGap (d.characters separator) = true)
    {parts : List Sql} (hparts : ∀ sql ∈ parts, d.IsPhrase (d.characters sql)) :
    d.IsPhrase (d.characters (List.intercalate separator parts)) :=
  intercalate_induction IsInert.nil.isPhrase
    (fun _ _ hfirst hsecond => hfirst.gap hgap hsecond) hparts

theorem commaList {parts : List Sql} (hparts : ∀ sql ∈ parts, d.IsPhrase (d.characters sql)) :
    d.IsPhrase (d.characters (Sql.commaList parts)) :=
  intercalate (by cases d <;> rfl) hparts

end IsPhrase

/-! ## What stands behind a column -/

namespace IsTail

/-- A sign and a value. -/
theorem signed {sign : List Char} (hsign : d.isInertGap sign = true) (hne : d.lexemes sign ≠ [])
    (h : d.IsPhrase text) : d.IsTail (sign ++ text) := by
  simp only [isInertGap, Bool.and_eq_true, List.all_eq_true, beq_iff_eq] at hsign
  obtain ⟨c, rest, rfl, hbreak, hblank⟩ := exists_of_isGap hsign.1
  refine ⟨⟨c, rest ++ text, rfl, hbreak⟩, d.settles_append_of_blank hblank h.settles, ?_⟩
  rw [d.lexemes_append_of_blank hblank]
  obtain ⟨t, ts, hts⟩ := List.exists_cons_of_ne_nil hne
  rw [hts] at hsign ⊢
  exact .inl (.of_head ((IsUnjoined.of_role hsign.2).append h.isUnjoined) (hsign.2 t (.head ts)))

/-- The tokens of a list behind a keyword. -/
theorem lexemes_listed {opening : List Char} {ts : List Lexeme}
    (hblank : (d.scan .blank opening).2 = .blank)
    (hopening : d.lexemes opening = ts ++ [.symbol '(']) (h : d.IsPhrase text) :
    d.Settles (opening ++ (text ++ ")".toList)) ∧
      d.lexemes (opening ++ (text ++ ")".toList)) =
        ts ++ (.symbol '(' :: d.lexemes text ++ [.symbol ')']) := by
  have hclose : d.Settles ")".toList := by cases d <;> rfl
  have hlast : d.lexemes ")".toList = [.symbol ')'] := by cases d <;> rfl
  have hjoined : d.lexemes (text ++ ")".toList) = d.lexemes text ++ d.lexemes ")".toList :=
    d.lexemes_append_of_isBreak h.settles (by decide) []
  refine ⟨d.settles_append_of_blank hblank
    (d.settles_append_of_isBreak h.settles (by decide) hclose), ?_⟩
  rw [d.lexemes_append_of_blank hblank, hopening, hjoined, hlast]
  simp

/-- A keyword and a list in parentheses. -/
theorem isFragment_listed {ts : List Lexeme} (h : IsUnjoined ts) :
    IsFragment ([.word ['I', 'N']] ++ (.symbol '(' :: ts ++ [.symbol ')'])) := by
  obtain ⟨roles, hroles, _⟩ := h
  have hword : IsUnjoined [.word ['I', 'N']] := .of_role (by decide)
  exact .of_head (hword.append (.group rfl rfl hroles)) rfl

/-- The alternatives of `IN`. -/
theorem oneOf (h : d.IsPhrase text) : d.IsTail (" IN (".toList ++ (text ++ ")".toList)) := by
  have hblank : (d.scan .blank " IN (".toList).2 = .blank := by cases d <;> rfl
  have hopening : d.lexemes " IN (".toList = [.word ['I', 'N']] ++ [.symbol '('] := by
    cases d <;> rfl
  obtain ⟨hsettles, hlexemes⟩ := lexemes_listed hblank hopening h
  refine ⟨⟨' ', _, rfl, by decide⟩, hsettles, ?_⟩
  rw [hlexemes]
  exact .inl (isFragment_listed h.isUnjoined)

/-- The alternatives of `NOT IN`. -/
theorem noneOf (h : d.IsPhrase text) : d.IsTail (" NOT IN (".toList ++ (text ++ ")".toList)) := by
  have hblank : (d.scan .blank " NOT IN (".toList).2 = .blank := by cases d <;> rfl
  have hopening : d.lexemes " NOT IN (".toList =
      [.word ['N', 'O', 'T'], .word ['I', 'N']] ++ [.symbol '('] := by
    cases d <;> rfl
  obtain ⟨hsettles, hlexemes⟩ := lexemes_listed hblank hopening h
  refine ⟨⟨' ', _, rfl, by decide⟩, hsettles, ?_⟩
  rw [hlexemes]
  exact .inr ⟨_, _, rfl, rfl, isFragment_listed h.isUnjoined⟩

/-- The test for null. -/
theorem isNull : d.IsTail " IS NULL".toList := by
  have hlexemes : d.lexemes " IS NULL".toList =
      [.word ['I', 'S'], .word ['N', 'U', 'L', 'L']] := by cases d <;> rfl
  refine ⟨⟨' ', _, rfl, by decide⟩, by cases d <;> rfl, ?_⟩
  rw [hlexemes]
  exact .inl (.of_head (.of_role (by decide)) rfl)

/-- The test for anything but null. -/
theorem isNotNull : d.IsTail " IS NOT NULL".toList := by
  have hlexemes : d.lexemes " IS NOT NULL".toList =
      [.word ['I', 'S'], .word ['N', 'O', 'T'], .word ['N', 'U', 'L', 'L']] := by cases d <;> rfl
  refine ⟨⟨' ', _, rfl, by decide⟩, by cases d <;> rfl, ?_⟩
  rw [hlexemes]
  exact .inl (.of_head ⟨[.other, .negation, .other], rfl, by decide⟩ rfl)

end IsTail

/-- A call whose arguments are closed and what stands behind it. -/
theorem isFragment_call (name opening : List Char) {arguments tail : List Char} {ts : List Lexeme}
    (hname : (Lexeme.word name).role = .other) (hblank : (d.scan .blank opening).2 = .blank)
    (hopening : d.lexemes opening = [.word name, .symbol '(']) (harguments : d.IsPhrase arguments)
    (hbreak : ∃ rest, tail = ')' :: rest) (hsettles : d.Settles tail)
    (htail : d.lexemes tail = .symbol ')' :: ts) (hts : IsUnjoined ts) :
    d.Settles (opening ++ (arguments ++ tail)) ∧
      IsFragment (d.lexemes (opening ++ (arguments ++ tail))) := by
  obtain ⟨rest, rfl⟩ := hbreak
  refine ⟨d.settles_append_of_blank hblank
    (d.settles_append_of_isBreak harguments.settles (by decide) hsettles), ?_⟩
  obtain ⟨roles, hroles, _⟩ := harguments.isUnjoined
  have hlist : IsUnjoined (.symbol '(' :: d.lexemes arguments ++ [.symbol ')']) :=
    .group rfl rfl hroles
  have hword : IsUnjoined [.word name] := .of_role (by simpa using hname)
  rw [d.lexemes_append_of_blank hblank, d.lexemes_append_of_isBreak harguments.settles (by decide),
    hopening, htail]
  have hall := IsFragment.of_head ((hword.append hlist).append hts) hname
  simpa using hall

/-- Two calls, one behind the other. -/
theorem isFragment_calls (name opening middle : List Char) (ts : List Lexeme)
    {arguments : List Char} (hname : (Lexeme.word name).role = .other)
    (hblank : (d.scan .blank opening).2 = .blank)
    (hopening : d.lexemes opening = [.word name, .symbol '(']) (harguments : d.IsPhrase arguments)
    (hbreak : ∃ rest, middle = ')' :: rest) (hmiddle : (d.scan .blank middle).2 = .blank)
    (hlexemes : d.lexemes middle = .symbol ')' :: ts ++ [.symbol '('])
    (hts : ∀ t ∈ ts, t.role = .other) (h : d.IsPhrase text) :
    d.Settles (opening ++ (arguments ++ (middle ++ (text ++ ")".toList)))) ∧
      IsFragment (d.lexemes (opening ++ (arguments ++ (middle ++ (text ++ ")".toList))))) := by
  obtain ⟨rest, rfl⟩ := hbreak
  obtain ⟨hsettles, htail⟩ := IsTail.lexemes_listed hmiddle hlexemes h
  obtain ⟨roles, hroles, _⟩ := h.isUnjoined
  have hlist : IsUnjoined (.symbol '(' :: d.lexemes text ++ [.symbol ')']) :=
    .group rfl rfl hroles
  exact isFragment_call name opening hname hblank hopening harguments ⟨_, rfl⟩ hsettles htail
    ((IsUnjoined.of_role hts).append hlist)

/-- A pattern match in lower case. -/
theorem IsComparison.lowered {column : List Char} (h : d.IsPhrase text) :
    d.IsComparison column ("LOWER(".toList ++ (column ++ (") LIKE ".toList ++ text))) := by
  have hblank : (d.scan .blank ") LIKE ".toList).2 = .blank := by cases d <;> rfl
  have hlike : d.lexemes ") LIKE ".toList = [.symbol ')', .word ['L', 'I', 'K', 'E']] := by
    cases d <;> rfl
  have htail : d.lexemes (") LIKE ".toList ++ text) =
      .symbol ')' :: (.word ['L', 'I', 'K', 'E'] :: d.lexemes text) := by
    rw [d.lexemes_append_of_blank hblank, hlike]
    rfl
  have hword : IsUnjoined [.word ['L', 'I', 'K', 'E']] := .of_role (by decide)
  have hcall (hcolumn : d.IsPhrase column) := isFragment_call (d := d) "LOWER".toList
    "LOWER(".toList
    (by decide) (by cases d <;> rfl) (by cases d <;> rfl) hcolumn
    ⟨_, rfl⟩ (d.settles_append_of_blank hblank h.settles) htail (hword.append h.isUnjoined)
  exact ⟨fun hcolumn => ⟨(hcall hcolumn).1, (hcall hcolumn).2.isUnjoined⟩,
    fun hcolumn => .inl (hcall hcolumn.isPhrase).2⟩

end Dialect

/-! ## Compiled comparisons -/

namespace Compiler

/-- A raw fragment whose text, wherever it stands, has no connective outside parentheses. -/
def Closes (c : Compiler) (sql : RawSql) : Prop :=
  ∀ (registry : Registry) (qualifier text : String),
    c.rawText registry sql qualifier = .ok text → c.dialect.IsPhrase text.toList

/-- Several closed fragments. -/
def ClosesAll (c : Compiler) (sqls : List RawSql) : Prop := ∀ sql ∈ sqls, c.Closes sql

variable {c : Compiler}

namespace ClosesAll

theorem nil : c.ClosesAll [] := fun _ h => absurd h List.not_mem_nil

theorem left {first second : List RawSql} (h : c.ClosesAll (first ++ second)) :
    c.ClosesAll first := fun sql hsql => h sql (List.mem_append_left second hsql)

theorem right {first second : List RawSql} (h : c.ClosesAll (first ++ second)) :
    c.ClosesAll second := fun sql hsql => h sql (List.mem_append_right first hsql)

end ClosesAll

theorem ensures_raw (m : Member) {sql : RawSql} (h : c.Closes sql) (qualifier? : Option String) :
    Ensures (fun sql => c.dialect.IsPhrase (c.dialect.characters sql))
      (c.raw m sql qualifier?) := by
  intro result hresult
  unfold raw at hresult
  cases htext : c.rawText m.registry sql (qualifier?.getD "") with
  | error e =>
    rw [htext] at hresult
    cases hresult
  | ok text =>
    rw [htext] at hresult
    cases hresult
    simpa [Dialect.renderPiece] using h _ _ _ htext

/-- A column is inert unless its field is computed, and then it is closed if the computing
expression is. -/
theorem ensures_columnReference {m : Member} {key : String}
    (hkey : ∀ sql, m.computed? key = some sql → c.Closes sql) (qualifier? : Option String) :
    Ensures (fun sql => c.dialect.IsPhrase (c.dialect.characters sql) ∧
        (m.computed? key = none → c.dialect.IsInert (c.dialect.characters sql)))
      (c.columnReference m key qualifier?) := by
  have inert {sql : Sql} (h : c.dialect.IsInert (c.dialect.characters sql)) :
      c.dialect.IsPhrase (c.dialect.characters sql) ∧
        (m.computed? key = none → c.dialect.IsInert (c.dialect.characters sql)) :=
    ⟨h.isPhrase, fun _ => h⟩
  unfold columnReference
  split
  · rename_i field hfield
    have hcomputed : m.computed? key = field.computed? := by simp [Member.computed?, hfield]
    split
    · rename_i sql hsql
      rw [hsql] at hcomputed
      exact (ensures_raw m (hkey sql hcomputed) qualifier?).mono fun _ h =>
        ⟨h, fun hnone => by simp [hcomputed] at hnone⟩
    · exact .pure (inert (.column m key qualifier?))
  · split
    · rename_i path last _
      split
      · rename_i target _
        have hgap : c.dialect.isInertGap ".".toList = true := by cases c.dialect <;> rfl
        refine .pure (inert ?_)
        rw [Dialect.characters_append, Dialect.characters_cons]
        exact (Dialect.IsInert.identifier path).gap hgap (.identifier _)
      · exact .pure (inert (.path key))
    · exact .pure (inert (.qualified _ (.path key)))

theorem isPhrase_of_piece {d : Dialect} {piece : Sql.Piece} (h : d.IsInert (d.renderPiece piece)) :
    d.IsPhrase (d.characters [piece]) := by
  simpa using h.isPhrase

mutual

/-- A value whose raw SQL is closed is closed. -/
theorem ensures_escape : ∀ v : Value, c.ClosesAll v.raws →
    Ensures (fun sql => c.dialect.IsPhrase (c.dialect.characters sql)) (c.escape v)
  | .null, _ => .pure (isPhrase_of_piece (by cases c.dialect <;> exact ⟨rfl, by decide⟩))
  | .bool true, _ => .pure (isPhrase_of_piece (by cases c.dialect <;> exact ⟨rfl, by decide⟩))
  | .bool false, _ => .pure (isPhrase_of_piece (by cases c.dialect <;> exact ⟨rfl, by decide⟩))
  | .int n, _ => .pure (isPhrase_of_piece (.of_isSigned (isSigned_int n)))
  | .float x, _ => by
    refine .pure (isPhrase_of_piece ?_)
    split
    · exact .of_isSigned (isSigned_toText ‹_›)
    · cases c.dialect <;> exact ⟨rfl, by decide⟩
  | .text s, _ => .pure (isPhrase_of_piece (.quoteText s))
  | .blob bytes, _ => .pure (isPhrase_of_piece (.quoteBytes bytes))
  | .json document, _ => .pure (isPhrase_of_piece (.quoteText document.toText))
  | .list items, h => (ensures_escapeAll items h).bind fun _ hitems => .pure (.commaList hitems)
  | .raw sql, h => by
    intro result hresult
    cases htext : c.rawText {} sql "" with
    | error e =>
      rw [escape, htext] at hresult
      cases hresult
    | ok text =>
      rw [escape, htext] at hresult
      cases hresult
      simpa [Dialect.renderPiece] using h sql (.head []) _ _ _ htext

theorem ensures_escapeAll : ∀ items : List Value, c.ClosesAll (Value.rawsOfItems items) →
    Ensures (fun sqls => ∀ sql ∈ sqls, c.dialect.IsPhrase (c.dialect.characters sql))
      (c.escapeAll items)
  | [], _ => .pure (by simp)
  | item :: rest, h =>
    (ensures_escape item h.left).bind fun _ hfirst =>
      (ensures_escapeAll rest h.right).bind fun _ hothers =>
        .pure (List.forall_mem_cons.2 ⟨hfirst, hothers⟩)

end

mutual

theorem ensures_value (m : Member) (qualifier? : Option String) : ∀ v : Value,
    c.ClosesAll v.raws →
    Ensures (fun sql => c.dialect.IsPhrase (c.dialect.characters sql)) (c.value m qualifier? v)
  | .raw sql, h => ensures_raw m (h sql (.head [])) qualifier?
  | .list items, h =>
    (ensures_values m qualifier? items h).bind fun _ hitems => .pure (.commaList hitems)
  | .null, h => ensures_escape .null h
  | .bool b, h => ensures_escape (.bool b) h
  | .int n, h => ensures_escape (.int n) h
  | .float x, h => ensures_escape (.float x) h
  | .text s, h => ensures_escape (.text s) h
  | .blob bytes, h => ensures_escape (.blob bytes) h
  | .json document, h => ensures_escape (.json document) h

theorem ensures_values (m : Member) (qualifier? : Option String) : ∀ items : List Value,
    c.ClosesAll (Value.rawsOfItems items) →
    Ensures (fun sqls => ∀ sql ∈ sqls, c.dialect.IsPhrase (c.dialect.characters sql))
      (c.values m qualifier? items)
  | [], _ => .pure (by simp)
  | item :: rest, h =>
    (ensures_value m qualifier? item h.left).bind fun _ hfirst =>
      (ensures_values m qualifier? rest h.right).bind fun _ hothers =>
        .pure (List.forall_mem_cons.2 ⟨hfirst, hothers⟩)

end

end Compiler

/-- A predicate of one closed expression, which is a test under the condition. -/
structure Predicate.IsSingle (d : Dialect) (condition : Prop) (p : Predicate) : Prop where
  ne_nil : p ≠ []
  isPhrase : d.IsPhrase (p.text d)
  isTest : condition → IsTest (d.lexemes (p.text d))

theorem Predicate.text_ofAtom (d : Dialect) (sql : Sql) :
    (Predicate.ofAtom sql).text d = d.characters sql := by
  simp [text, toSql, ofAtom, Token.toSql]

namespace Dialect

variable {d : Dialect}

/-- Whether the text is a sign between a column and a value: a gap with tokens, none of which has a
role. -/
def isSign (d : Dialect) (text : List Char) : Bool := d.isInertGap text && !(d.lexemes text).isEmpty

theorem isComparison_behind {column tail : Sql} (h : d.IsTail (d.characters tail)) :
    d.IsComparison (d.characters column) (d.characters (column ++ tail)) := by
  rw [characters_append]
  exact h.isComparison

theorem isComparison_sign {column value : Sql} {sign : String} (hsign : d.isSign sign.toList = true)
    (hvalue : d.IsPhrase (d.characters value)) :
    d.IsComparison (d.characters column) (d.characters (column ++ .word sign :: value)) := by
  simp only [isSign, Bool.and_eq_true, Bool.not_eq_true', List.isEmpty_eq_false_iff] at hsign
  exact isComparison_behind (.signed hsign.1 hsign.2 hvalue)

theorem isComparison_null (column : Sql) (word : String)
    (hword : d.IsTail word.toList) :
    d.IsComparison (d.characters column) (d.characters (column ++ [.word word])) := by
  refine isComparison_behind ?_
  rw [characters_cons, characters_nil, List.append_nil]
  exact hword

theorem isComparison_like (column : Sql) (sign : String) (hsign : d.isSign sign.toList = true)
    (s : String) :
    d.IsComparison (d.characters column) (d.characters (column ++ [.word sign, .literal s])) :=
  isComparison_sign hsign (Compiler.isPhrase_of_piece (.quoteText s))

theorem isComparison_likeAnyCase (column : Sql) (s : String) :
    d.IsComparison (d.characters column) (d.characters (d.likeAnyCase column s)) := by
  have hlowered (d : Dialect) : d.IsComparison (d.characters column)
      ("LOWER(".toList ++ (d.characters column ++
        (") LIKE ".toList ++ d.quoteText (Text.lowered s)))) :=
    .lowered (IsInert.quoteText (Text.lowered s)).isPhrase
  cases d with
  | postgres => exact isComparison_like column " ILIKE " rfl s
  | mysql | mariadb | sqlite => simpa [likeAnyCase, renderPiece] using hlowered _

/-- A list in parentheses behind its sign. -/
theorem isComparison_listed (column : Sql) {sign : String} {sqls : List Sql}
    (hsign : ∀ text, d.IsPhrase text → d.IsTail (sign.toList ++ (text ++ ")".toList)))
    (hsqls : ∀ sql ∈ sqls, d.IsPhrase (d.characters sql)) :
    d.IsComparison (d.characters column)
      (d.characters (column ++ .word sign :: Sql.commaList sqls ++ [.word ")"])) := by
  have htail := hsign _ (IsPhrase.commaList hsqls)
  rw [List.append_assoc]
  refine isComparison_behind ?_
  simpa [renderPiece] using htail

/-- An equation of numbers, which stands for a list without alternatives. -/
theorem isComparison_constant (column : List Char) {word : String}
    (hword : word = "1 = 0" ∨ word = "1 = 1") :
    d.IsComparison column (d.characters [.word word]) := by
  have hsettles : d.Settles word.toList := by
    rcases hword with rfl | rfl <;> cases d <;> rfl
  have hlexemes : ∃ digit, d.lexemes word.toList =
      [.word ['1'], .symbol '=', .word [digit]] ∧ (Lexeme.word [digit]).role = .other := by
    rcases hword with rfl | rfl
    · exact ⟨'0', by cases d <;> rfl, rfl⟩
    · exact ⟨'1', by cases d <;> rfl, rfl⟩
  obtain ⟨digit, hlexemes, hdigit⟩ := hlexemes
  rw [characters_cons, characters_nil, List.append_nil]
  refine .of_isTest hsettles ?_
  rw [renderPiece, hlexemes]
  refine .inl (.of_head (.of_role fun t ht => ?_) rfl)
  simp only [List.mem_cons, List.not_mem_nil, or_false] at ht
  rcases ht with rfl | rfl | rfl
  · rfl
  · rfl
  · exact hdigit

end Dialect

namespace Compiler

variable {c : Compiler}

section Comparisons

variable {m : Member} {key : String} {qualifier? : Option String} {column : Sql} {v : Value}

/-- Whether the predicate is one comparison with the column. -/
def ComparesWith (c : Compiler) (column : Sql) (p : Predicate) : Prop :=
  ∃ sql, p = .ofAtom sql ∧
    c.dialect.IsComparison (c.dialect.characters column) (c.dialect.characters sql)

theorem ComparesWith.isSingle {p : Predicate} (h : c.ComparesWith column p) {condition : Prop}
    (hphrase : c.dialect.IsPhrase (c.dialect.characters column))
    (hinert : condition → c.dialect.IsInert (c.dialect.characters column)) :
    p.IsSingle c.dialect condition := by
  obtain ⟨sql, rfl, hsql⟩ := h
  refine ⟨List.cons_ne_nil _ _, ?_, fun hcondition => ?_⟩
  · rw [Predicate.text_ofAtom]
    exact hsql.isPhrase hphrase
  · rw [Predicate.text_ofAtom]
    exact hsql.isTest (hinert hcondition)

/-- A value behind a sign. -/
theorem comparesWith_value (hv : c.ClosesAll v.raws) {sign : String}
    (hsign : c.dialect.isSign sign.toList = true) :
    Ensures (c.ComparesWith column)
      (do return .ofAtom (column ++ .word sign :: (← c.value m qualifier? v))) :=
  (ensures_value m qualifier? v hv).bind fun _ hvalue =>
    .pure ⟨_, rfl, Dialect.isComparison_sign hsign hvalue⟩

/-- A pattern, which is a literal whatever its text is. -/
theorem comparesWith_pattern (before after : String) {f : String → Sql}
    (hf : ∀ s, c.dialect.IsComparison (c.dialect.characters column) (c.dialect.characters (f s))) :
    Ensures (c.ComparesWith column)
      ((patternOf key v >>= fun s => pure (before ++ s ++ after)) >>= fun s => pure (.ofAtom (f s))) :=
  Ensures.bind_any fun s => .pure ⟨_, rfl, hf s⟩

/-- A list of values, or a constant in place of an empty one. -/
theorem comparesWith_list {sign empty : String}
    (hsign : ∀ text, c.dialect.IsPhrase text → c.dialect.IsTail (sign.toList ++ (text ++ ")".toList)))
    (hempty : empty = "1 = 0" ∨ empty = "1 = 1") (items : List Value)
    (hitems : c.ClosesAll (Value.rawsOfItems items)) :
    Ensures (c.ComparesWith column)
      (if items.isEmpty then pure (.ofAtom [.word empty])
        else c.values m qualifier? items >>= fun sqls =>
          pure (.ofAtom (column ++ .word sign :: Sql.commaList sqls ++ [.word ")"]))) := by
  split
  · exact .pure ⟨_, rfl, Dialect.isComparison_constant _ hempty⟩
  · exact (ensures_values m qualifier? items hitems).bind fun sqls hsqls =>
      .pure ⟨_, rfl, Dialect.isComparison_listed column hsign hsqls⟩

end Comparisons

theorem ensures_comparison {m : Member} {key : String}
    (hkey : ∀ sql, m.computed? key = some sql → c.Closes sql) (qualifier? : Option String)
    (operator : FieldOperator) {v : Value} (hv : c.ClosesAll v.raws) :
    Ensures (Predicate.IsSingle c.dialect (m.computed? key = none))
      (c.comparison m key qualifier? operator v) := by
  refine (ensures_columnReference hkey qualifier?).bind fun column ⟨hphrase, hinert⟩ =>
    Ensures.mono (P := c.ComparesWith column) ?_ fun p h => h.isSingle hphrase hinert
  cases operator with
  | equal =>
    simp only
    split
    · exact .pure ⟨_, rfl, Dialect.isComparison_null column _ .isNull⟩
    · exact comparesWith_value hv (by cases c.dialect <;> rfl)
  | notEqual =>
    simp only
    split
    · exact .pure ⟨_, rfl, Dialect.isComparison_null column _ .isNotNull⟩
    · exact comparesWith_value hv (by cases c.dialect <;> rfl)
  | less | lessOrEqual | greater | greaterOrEqual =>
    exact comparesWith_value hv (by cases c.dialect <;> rfl)
  | startsWith | endsWith | includes | like | regex =>
    exact comparesWith_pattern _ _
      (Dialect.isComparison_like column _ (by cases c.dialect <;> rfl))
  | startsWithAnyCase | endsWithAnyCase | includesAnyCase | likeAnyCase =>
    exact comparesWith_pattern _ _ (Dialect.isComparison_likeAnyCase column)
  | oneOf =>
    cases v with
    | list items => exact comparesWith_list (fun _ => .oneOf) (.inl rfl) items hv
    | raw sql => exact comparesWith_list (fun _ => .oneOf) (.inl rfl) [.raw sql] hv
    | null | bool | int | float | text | blob | json =>
      exact comparesWith_list (fun _ => .oneOf) (.inl rfl) [_] .nil
  | noneOf =>
    cases v with
    | list items => exact comparesWith_list (fun _ => .noneOf) (.inr rfl) items hv
    | raw sql => exact comparesWith_list (fun _ => .noneOf) (.inr rfl) [.raw sql] hv
    | null | bool | int | float | text | blob | json =>
      exact comparesWith_list (fun _ => .noneOf) (.inr rfl) [_] .nil
  | negation => exact .error _

/-- A text search calls functions of the database, or compares the table. -/
theorem isTest_textSearch (m : Member) (search : TextSearch) (qualifier? : Option String) :
    c.dialect.Settles (c.dialect.characters (c.textSearch m search qualifier?)) ∧
      IsTest (c.dialect.lexemes (c.dialect.characters (c.textSearch m search qualifier?))) := by
  have hcolumns (d : Dialect) : ∀ sql ∈ search.fields.map fun key => column m key qualifier?,
      d.IsPhrase (d.characters sql) := fun sql hsql => by
    obtain ⟨key, _, rfl⟩ := List.mem_map.1 hsql
    exact (Dialect.IsInert.column m key qualifier?).isPhrase
  have hterms (d : Dialect) (s : String) : d.IsPhrase (d.quoteText s) :=
    (Dialect.IsInert.quoteText s).isPhrase
  have hmatch (d : Dialect) := Dialect.isFragment_calls "MATCH".toList "MATCH(".toList
    ") AGAINST(".toList [.word "AGAINST".toList] (by decide) (by cases d <;> rfl)
    (by cases d <;> rfl) (Dialect.IsPhrase.commaList (hcolumns d)) ⟨_, rfl⟩ (by cases d <;> rfl)
    (by cases d <;> rfl) (by decide) (hterms d search.terms)
  unfold textSearch
  cases c.dialect with
  | postgres =>
    have harguments : Dialect.postgres.IsPhrase (Dialect.postgres.characters
        (List.intercalate [.word " || ", .standardLiteral " ", .word " || "]
          (search.fields.map fun key => column m key qualifier?))) :=
      .intercalate rfl (hcolumns .postgres)
    obtain ⟨hsettles, hfragment⟩ := Dialect.isFragment_calls (d := .postgres) "to_tsvector".toList
      "to_tsvector(".toList ") @@ to_tsquery(".toList
      [.symbol '@', .symbol '@', .word "to_tsquery".toList] rfl rfl rfl harguments ⟨_, rfl⟩ rfl rfl
      (by decide) (hterms .postgres search.terms)
    simpa [Dialect.renderPiece, IsTest] using And.intro hsettles (Or.inl hfragment)
  | mysql | mariadb =>
    obtain ⟨hsettles, hfragment⟩ := hmatch _
    simpa [Dialect.renderPiece, IsTest] using And.intro hsettles (Or.inl hfragment)
  | sqlite =>
    have compared {target : Sql} (h : Dialect.sqlite.IsInert (Dialect.sqlite.characters target))
        (s : String) :
        Dialect.sqlite.Settles
          (Dialect.sqlite.characters (target ++ [.word " MATCH ", .literal s])) ∧
          IsTest (Dialect.sqlite.lexemes
            (Dialect.sqlite.characters (target ++ [.word " MATCH ", .literal s]))) := by
      have hlike := Dialect.isComparison_like (d := .sqlite) target " MATCH " rfl s
      exact ⟨(hlike.isPhrase h.isPhrase).settles, hlike.isTest h⟩
    refine compared ?_ _
    cases qualifier? with
    | none => exact .path _
    | some name => exact .identifier _

end Compiler

end EntitySql
