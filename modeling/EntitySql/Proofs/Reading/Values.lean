import EntitySql.Compile.Value
import EntitySql.Proofs.Ensures
import EntitySql.Proofs.Reading.Commas
import EntitySql.Proofs.Redaction.Input
/-!
# Values as parts of lists

A value is written as one expression, whatever its text holds, unless it is a list: the items of a list stand between
commas, where nothing tells them from the parts of a list around them. Raw SQL is taken to be an expression.
-/

namespace EntitySql

open Lexeme Lexer

/-! ## Single tokens -/

namespace Dialect

variable {d : Dialect} {sql : Sql}

theorem tokens_name (d : Dialect) (name : String) : d.tokens [.name name] = [.name name.toList] := by
  simp [tokens, renderPiece, lexemes_quoteName]

theorem tokens_literal (d : Dialect) (text : String) : d.tokens [.literal text] = [.literal text.toList] := by
  simp [tokens, renderPiece, lexemes_quoteText]

theorem tokens_bytes (d : Dialect) (content : List UInt8) :
    d.tokens [.bytes content] = d.lexemes (d.quoteBytes content) := by
  simp [tokens, renderPiece]

theorem tokens_word (d : Dialect) (text : String) : d.tokens [.word text] = d.lexemes text.toList := by
  simp [tokens, renderPiece]

theorem scan_space (d : Dialect) : (d.scan .blank " ".toList).2 = .blank := by cases d <;> rfl

theorem tokens_space (sql : Sql) : d.tokens (.word " " :: sql) = d.tokens sql := by
  have hlexemes : d.lexemes " ".toList = [] := by cases d <;> rfl
  rw [tokens_words d.scan_space, hlexemes]
  rfl

namespace IsPlainText

theorem name (identifier : String) : d.IsPlainText [.name identifier] where
  settles := by simpa [renderPiece] using (d.complete_quoteName identifier).settles
  tokens := by
    rw [tokens_name]
    exact List.forall_mem_singleton.2 ⟨rfl, nofun⟩

theorem identifier (name : String) : d.IsPlainText (Sql.identifier name) := by
  unfold Sql.identifier
  split
  · exact ⟨rfl, nofun⟩
  · exact .name name

theorem dot (h : d.IsPlainText sql) : d.IsPlainText (.word "." :: sql) := by
  have hdot : (d.scan .blank ".".toList).2 = .blank := by cases d <;> rfl
  have hdotTokens : d.lexemes ".".toList = [.symbol '.'] := by cases d <;> rfl
  refine ⟨d.settles_append_of_blank hdot h.settles, ?_⟩
  rw [tokens_words hdot, hdotTokens]
  exact List.forall_mem_append.2 ⟨List.forall_mem_singleton.2 ⟨rfl, by decide⟩, h.tokens⟩

theorem qualified (qualifier : String) (h : d.IsPlainText sql) : d.IsPlainText (Sql.qualifier qualifier ++ sql) := by
  unfold Sql.qualifier
  split
  · exact h
  · exact (name qualifier).append h.dot rfl

theorem path (name : String) : d.IsPlainText (Sql.path name) := by
  unfold Sql.path
  split
  · exact ⟨rfl, nofun⟩
  · generalize Sql.segments name = parts
    induction parts with
    | nil => exact ⟨rfl, nofun⟩
    | cons first rest ih =>
      cases rest with
      | nil => simpa [List.intercalate] using IsPlainText.name first
      | cons second rest => exact (IsPlainText.name first).append ih.dot rfl

theorem column (m : Member) (key : String) (qualifier? : Option String) :
    d.IsPlainText (Compiler.column m key qualifier?) :=
  (identifier _).qualified _

theorem named (name : String) : d.IsPlainText (.word " " :: Sql.identifier name) := by
  have hname := IsPlainText.identifier (d := d) name
  refine ⟨d.settles_append_of_blank d.scan_space hname.settles, ?_⟩
  rw [tokens_space]
  exact hname.tokens

theorem literal (text : String) : d.IsPlainText [.literal text] where
  settles := by simpa [renderPiece] using (d.complete_quoteText text).settles
  tokens := by
    rw [tokens_literal]
    exact List.forall_mem_singleton.2 ⟨rfl, nofun⟩

theorem bytes (content : List UInt8) : d.IsPlainText [.bytes content] where
  settles := by simpa [renderPiece] using (d.complete_quoteBytes content).settles
  tokens := by
    rw [tokens_bytes]
    obtain ⟨text, h | h⟩ := d.lexemes_quoteBytes content
    · rw [h]
      exact List.forall_mem_singleton.2 ⟨rfl, nofun⟩
    · rw [h]
      exact List.forall_mem_cons.2 ⟨⟨rfl, nofun⟩, List.forall_mem_singleton.2 ⟨rfl, nofun⟩⟩

theorem number {text : String} (h : IsSigned text.toList) : d.IsPlainText [.word text] where
  settles := by simpa [renderPiece] using (IsInert.of_isSigned h).settles
  tokens := by
    intro t ht
    rw [tokens_word] at ht
    have hall := all_lexemes (IsInert.isNumeral_of_isSigned h) t ht
    refine ⟨IsInert.role_of_all hall, ?_⟩
    rintro rfl
    exact absurd (show (isNumeralChar ',' || ',' == '-') = true from hall) (by decide)

end IsPlainText

theorem tokens_identifier_eq_nil_iff {name : String} : d.tokens (Sql.identifier name) = [] ↔ name = "" := by
  unfold Sql.identifier
  split
  · rename_i hempty
    exact iff_of_true rfl (String.isEmpty_iff.1 hempty)
  · rename_i hname
    rw [tokens_name]
    exact iff_of_false (List.cons_ne_nil _ _) (mt String.isEmpty_iff.2 hname)

/-- A column is written as nothing if it has neither a name nor a qualifier. -/
theorem tokens_column_eq_nil_iff {m : Member} {key : String} {qualifier? : Option String} :
    d.tokens (Compiler.column m key qualifier?) = [] ↔ qualifier?.getD "" = "" ∧ m.columnName key = "" := by
  unfold Compiler.column Sql.qualifier
  split
  · rename_i hempty
    rw [List.nil_append, tokens_identifier_eq_nil_iff]
    exact (and_iff_right (String.isEmpty_iff.1 hempty)).symm
  · rename_i hname
    have htokens : d.tokens ([.name (qualifier?.getD "")] ++ .word "." :: Sql.identifier (m.columnName key)) =
        .name (qualifier?.getD "").toList :: d.tokens (.word "." :: Sql.identifier (m.columnName key)) := by
      rw [tokens_append_of_isBreak (IsPlainText.name _).settles rfl, tokens_name]
      rfl
    refine iff_of_false (fun hnone => ?_) fun h => hname (String.isEmpty_iff.2 h.1)
    exact List.cons_ne_nil _ _ (htokens.symm.trans hnone)

/-! ## Texts that are one part of a list -/

/-- A text that closes what it opens, and whether it is one part of a list. -/
structure IsWritten (d : Dialect) (single : Bool) (sql : Sql) : Prop where
  isWhole : d.IsWhole sql
  isSingle_iff : d.IsSingle sql ↔ single = true

namespace IsWritten

theorem of_isSingle (hwhole : d.IsWhole sql) (hsingle : d.IsSingle sql) : d.IsWritten true sql :=
  ⟨hwhole, iff_of_true hsingle rfl⟩

/-- How a text is read depends on its characters alone. -/
theorem of_characters_eq {other : Sql} {single : Bool} (htext : d.characters other = d.characters sql)
    (h : d.IsWritten single sql) : d.IsWritten single other := by
  have htokens : d.tokens other = d.tokens sql := congrArg d.lexemes htext
  refine ⟨⟨htext ▸ h.isWhole.settles, htokens ▸ h.isWhole.isClosed⟩, ?_⟩
  rw [← h.isSingle_iff]
  exact ⟨fun hother => ⟨htokens ▸ hother.ne_nil, htokens ▸ hother.split⟩,
    fun hsql => ⟨htokens.symm ▸ hsql.ne_nil, htokens.symm ▸ hsql.split⟩⟩

theorem of_isPlainText (h : d.IsPlainText sql) (hne : d.tokens sql ≠ []) : d.IsWritten true sql :=
  of_isSingle h.isWhole (h.isSingle hne)

theorem literal (text : String) : d.IsWritten true [.literal text] :=
  of_isPlainText (.literal text) (by simp [tokens_literal])

theorem bytes (content : List UInt8) : d.IsWritten true [.bytes content] := by
  refine of_isPlainText (.bytes content) ?_
  rw [tokens_bytes]
  obtain ⟨text, h | h⟩ := d.lexemes_quoteBytes content <;> simp [h]

theorem number {text : String} (h : IsSigned text.toList) : d.IsWritten true [.word text] :=
  of_isPlainText (.number h) (by simpa only [tokens_word] using d.lexemes_ne_nil_of_isSigned h)

theorem null : d.IsWritten true [.word "NULL"] := by
  cases d <;> exact of_isPlainText ⟨rfl, by decide⟩ (by decide)

theorem bool (b : Bool) : d.IsWritten true [.word (if b then "TRUE" else "FALSE")] := by
  cases d <;> cases b <;> exact of_isPlainText ⟨rfl, by decide⟩ (by decide)

end IsWritten

end Dialect

/-! ## Values -/

namespace Value

mutual

/-- Whether a value is written as one expression. -/
def isSingle : Value → Bool
  | .list items => isSingleton items
  | _ => true
termination_by structural v => v

/-- Whether values are written as one expression. -/
def isSingleton : List Value → Bool
  | [] => false
  | item :: rest => isSingle item && rest.isEmpty
termination_by structural items => items

end

end Value

/-- Texts of which each is one part of a list exactly if its item says so. -/
def Dialect.AreWritten {α : Type} (d : Dialect) (single : α → Bool) (items : List α) (parts : List Sql) : Prop :=
  List.Forall₂ (fun a sql => d.IsWritten (single a) sql) items parts

namespace Dialect.AreWritten

variable {α : Type} {d : Dialect} {single : α → Bool} {items : List α} {parts : List Sql}

theorem isWhole (h : d.AreWritten single items parts) : ∀ sql ∈ parts, d.IsWhole sql :=
  forall_mem_of_forall₂ (h.imp fun _ _ => IsWritten.isWhole)

theorem forall_isSingle_iff (h : d.AreWritten single items parts) :
    (∀ sql ∈ parts, d.IsSingle sql) ↔ ∀ a ∈ items, single a = true := by
  induction h with
  | nil => exact iff_of_true nofun nofun
  | cons hfirst _ ih => rw [List.forall_mem_cons, List.forall_mem_cons, hfirst.isSingle_iff, ih]

/-- A list of values is one part only if it has one item. -/
theorem commaList {items : List Value} (h : d.AreWritten Value.isSingle items parts) :
    d.IsWritten (Value.isSingleton items) (Sql.commaList parts) := by
  have hwhole := h.isWhole
  refine ⟨.commaList hwhole, ?_⟩
  cases h with
  | nil => exact iff_of_false (fun h => h.ne_nil rfl) (by simp [Value.isSingleton])
  | @cons v first items rest hfirst hrest =>
    cases hrest with
    | nil =>
      rw [commaList_singleton, hfirst.isSingle_iff]
      simp [Value.isSingleton]
    | @cons w second items rest hsecond hrest =>
      refine iff_of_false (fun hsingle => ?_) (by simp [Value.isSingleton])
      -- Each item has one part at least, even an empty one, so that two items never make one part.
      have hsplit := splitCommas_commaList hwhole (List.cons_ne_nil _ _)
      have hcount := congrArg List.length (hsplit.symm.trans hsingle.split)
      have hone := List.length_pos_of_ne_nil (splitCommas_ne_nil 0 (d.tokens first))
      have htwo := List.length_pos_of_ne_nil (splitCommas_ne_nil 0 (d.tokens second))
      simp only [List.flatMap_cons, List.length_append, List.length_singleton] at hcount
      omega

end Dialect.AreWritten

namespace Compiler

/-- Whether a raw fragment is an expression, whatever stands around it. -/
def Expresses (c : Compiler) (sql : RawSql) : Prop :=
  ∀ (registry : Registry) (qualifier text : String),
    c.rawText registry sql qualifier = .ok text → c.dialect.IsWritten true [.raw text]

/-- Whether several raw fragments are expressions. -/
def ExpressesAll (c : Compiler) (sqls : List RawSql) : Prop := ∀ sql ∈ sqls, c.Expresses sql

variable {c : Compiler}

theorem expressesAll_of_eq_nil {sqls : List RawSql} (h : sqls = []) : c.ExpressesAll sqls := by
  rw [h]
  exact nofun

mutual

theorem isWritten_escape : ∀ v : Value, c.ExpressesAll v.raws →
    Ensures (c.dialect.IsWritten v.isSingle) (c.escape v)
  | .null, _ => .pure .null
  | .bool b, _ => .pure (.bool b)
  | .int n, _ => .pure (.number (isSigned_int n))
  | .float x, _ => by
    rw [escape]
    split
    · rename_i hfinite
      exact .pure (.number (isSigned_toText hfinite))
    · exact .pure .null
  | .text s, _ => .pure (.literal s)
  | .blob content, _ => .pure (.bytes content)
  | .json document, _ => .pure (.literal document.toText)
  | .list items, h => (areWritten_escapeAll items h).bind fun _ hparts => .pure hparts.commaList
  | .raw sql, h => .bind_ok fun text htext => .pure (h sql (.head _) {} "" text htext)

theorem areWritten_escapeAll : ∀ items : List Value, c.ExpressesAll (Value.rawsOfItems items) →
    Ensures (c.dialect.AreWritten Value.isSingle items) (c.escapeAll items)
  | [], _ => .pure .nil
  | item :: rest, h =>
    (isWritten_escape item fun sql hsql => h sql (List.mem_append_left _ hsql)).bind fun _ hfirst =>
      (areWritten_escapeAll rest fun sql hsql => h sql (List.mem_append_right _ hsql)).bind fun _ hothers =>
        .pure (.cons hfirst hothers)

end

end Compiler

end EntitySql
