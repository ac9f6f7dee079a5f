import EntitySql.Compile.Write
import EntitySql.Proofs.Assoc
import EntitySql.Proofs.Reading.Values
/-!
# Rows that are written

An insert has a row for each record, with the stored keys of the first record for columns, and an update assigns to
each stored key of its record. There is one expression for each column if and only if every list goes into a column
of documents or of vectors, or has one item: anywhere else its items stand between the commas of the row.
-/

namespace EntitySql

open Lexeme Lexer

/-! ## Values in columns -/

namespace Dialect

variable {d : Dialect}

theorem isWritten_cast (text : String) :
    d.IsWritten true [.word "CAST(", .literal text, .word " AS JSON)"] := by
  have hname : d.IsPlainText [.word "CAST"] := by cases d <;> exact ⟨rfl, by decide⟩
  have htype : d.IsPlainText [.word " AS JSON"] := by cases d <;> exact ⟨rfl, by decide⟩
  obtain ⟨hwhole, hsingle⟩ := hname.call ((IsPlainText.literal text).append htype rfl).isWhole
  refine .of_characters_eq ?_ (.of_isSingle hwhole hsingle)
  simp [Sql.parenthesized, renderPiece]

theorem isWritten_jsonLiteral (text : String) : d.IsWritten true (d.jsonLiteral [.literal text]) := by
  cases d with
  | postgres =>
    have htype : postgres.IsPlainText [.word "::jsonb"] := ⟨rfl, by decide⟩
    refine .of_isPlainText ((IsPlainText.literal text).append htype rfl) ?_
    rw [jsonLiteral, tokens_append_of_isBreak (IsPlainText.literal text).settles rfl, tokens_literal]
    exact List.cons_ne_nil _ _
  | mysql | mariadb => exact isWritten_cast text
  | sqlite => exact .literal text

end Dialect

/-- Whether a column of the type takes a list as a whole: documents and vectors are written out as one text. -/
def FieldType.takesLists : FieldType → Bool
  | .json | .vector => true
  | _ => false

/-- Whether a value goes into the column of a key as one expression. -/
def Member.storesSingly (m : Member) (key : String) (v : Value) : Bool :=
  ((m.entity.fields.get? key).map (·.type)).any FieldType.takesLists || v.isSingle

namespace Compiler

variable {c : Compiler}

theorem isWritten_storedValue (m : Member) (key : String) {v : Value} (h : c.ExpressesAll v.raws) :
    Ensures (c.dialect.IsWritten (m.storesSingly key v)) (c.storedValue m key v) := by
  have hescape := isWritten_escape v h
  have hjson (s : String) : Ensures (c.dialect.IsWritten true) (pure (c.dialect.jsonLiteral [.literal s])) :=
    .pure (Dialect.isWritten_jsonLiteral s)
  -- Of the type of the column only lists depend: any other value is one expression in all of them.
  unfold storedValue Member.storesSingly
  generalize (m.entity.fields.get? key).map (·.type) = type?
  cases v with
  | raw sql =>
    simp only [Value.isSingle, Bool.or_true]
    exact .bind_ok fun text htext => .pure (h sql (.head _) m.registry "" text htext)
  | null =>
    simp only [Value.isSingle, Bool.or_true]
    exact .pure .null
  | list items =>
    match type? with
    | some .json => exact hjson _
    | some .vector => exact .pure (.literal _)
    | none | some .string | some .text | some .smallInt | some .integer | some .bigInt
    | some .float | some .double | some .decimal | some .boolean | some .date | some .time
    | some .timestamp | some .uuid | some .blob => exact hescape
  | bool | int | float | text | blob | json =>
    simp only [Value.isSingle, Bool.or_true]
    match type? with
    | some .json => exact hjson _
    | none | some .string | some .text | some .smallInt | some .integer | some .bigInt
    | some .float | some .double | some .decimal | some .boolean | some .date | some .time
    | some .timestamp | some .uuid | some .blob | some .vector => exact hescape

/-! ## Records with what is supplied to them -/

section Supplied

variable (supply : Field → Option Value)

end Supplied

section Completed

variable (e : Entity) (supply : Field → Option Value) (record : Record)

end Completed

/-! ## Rows -/

/-- What stands in the column of a key: its value, or null where it has none. -/
def cell (c : Compiler) (m : Member) (key : String) : Option Value → Except QueryError Sql
  | some v => c.storedValue m key v
  | none => return [.word "NULL"]

/-- The expressions for the keys of a row, in order, with the values that the keys have. -/
def IsRowOf (c : Compiler) (m : Member) (value : String → Option Value) (keys : List String)
    (row : List Sql) : Prop :=
  List.Forall₂ (fun key sql => c.cell m key (value key) = .ok sql) keys row

/-- Whether each value goes into its column as one expression. -/
def StoresSingly (m : Member) (value : String → Option Value) (keys : List String) : Prop :=
  ∀ key ∈ keys, ∀ v, value key = some v → m.storesSingly key v = true

variable {m : Member} {value : String → Option Value} {keys : List String} {row : List Sql}

theorem isWritten_cell (key : String) {value? : Option Value} (h : ∀ v ∈ value?, c.ExpressesAll v.raws) :
    Ensures (c.dialect.IsWritten (value?.all (m.storesSingly key))) (c.cell m key value?) := by
  cases value? with
  | none => exact .pure .null
  | some v => exact isWritten_storedValue m key (h v rfl)

theorem IsRowOf.areWritten (h : c.IsRowOf m value keys row)
    (hraws : ∀ key v, value key = some v → c.ExpressesAll v.raws) :
    c.dialect.AreWritten (fun key => (value key).all (m.storesSingly key)) keys row :=
  h.imp fun key sql hsql => isWritten_cell key (hraws key) sql hsql

theorem forall_all_iff : (∀ key ∈ keys, (value key).all (m.storesSingly key) = true) ↔
    StoresSingly m value keys := by
  simp only [StoresSingly, Option.all_eq_true]

/-- A reader finds one expression for each column of a row if and only if each value is written as one. -/
theorem IsRowOf.lists_iff (h : c.IsRowOf m value keys row) (hkeys : keys ≠ [])
    (hraws : ∀ key v, value key = some v → c.ExpressesAll v.raws) :
    c.dialect.Lists row ↔ StoresSingly m value keys := by
  have hwritten := h.areWritten hraws
  have hne : row ≠ [] := by
    rintro rfl
    cases h
    exact hkeys rfl
  rw [Dialect.lists_iff hwritten.isWhole hne, hwritten.forall_isSingle_iff, forall_all_iff]

end Compiler

namespace Dialect

variable {d : Dialect}

variable {m : Member} {set : String × Sql} {sets : List (String × Sql)}

end Dialect

namespace Compiler

variable {c : Compiler} {m : Member}

end Compiler

end EntitySql
