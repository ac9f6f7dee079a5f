import EntitySql.Compile.Filter
import EntitySql.Proofs.FilterFaults
import EntitySql.Proofs.Joins.Path
import EntitySql.Proofs.Reading.Values
/-!
# Values in comparisons

A filter compares a field with one value, or looks it up among several. A comparison without raw SQL is never refused:
it is the column, the sign of the operator and one expression for each value, unless some value is a list itself. The
items of such a list stand between the same commas as the values, and without items nothing stands there at all.
-/

namespace EntitySql

open Lexeme Lexer

/-! ## Operands -/

namespace FieldOperator

/-- Whether the operator compares values as they are. -/
def comparesValues : FieldOperator → Bool
  | equal | notEqual | less | lessOrEqual | greater | greaterOrEqual | oneOf | noneOf => true
  | _ => false

/-- The values that a comparison spells out. A test for null needs none of them, and a single value among which a
field is looked up stands for a list of it. -/
def operands : FieldOperator → Value → List Value
  | equal, .null | notEqual, .null => []
  | oneOf, .list items | noneOf, .list items => items
  | _, v => [v]

/-- The tokens of a comparison of a column with values, or with none. -/
def reading (operator : FieldOperator) (column values : List Lexeme) (none : Bool) : List Lexeme :=
  match operator, none with
  | equal, true => column ++ [.word "IS".toList, .word "NULL".toList]
  | equal, false => column ++ .symbol '=' :: values
  | notEqual, true => column ++ [.word "IS".toList, .word "NOT".toList, .word "NULL".toList]
  | notEqual, false => column ++ .symbol '<' :: .symbol '>' :: values
  | less, _ => column ++ .symbol '<' :: values
  | lessOrEqual, _ => column ++ .symbol '<' :: .symbol '=' :: values
  | greater, _ => column ++ .symbol '>' :: values
  | greaterOrEqual, _ => column ++ .symbol '>' :: .symbol '=' :: values
  | oneOf, true => [.word "1".toList, .symbol '=', .word "0".toList]
  | oneOf, false => column ++ (.word "IN".toList :: .symbol '(' :: values ++ [.symbol ')'])
  | noneOf, true => [.word "1".toList, .symbol '=', .word "1".toList]
  | noneOf, false => column ++ (.word "NOT".toList :: .word "IN".toList :: .symbol '(' :: values ++ [.symbol ')'])
  | _, _ => []

end FieldOperator

/-! ## Texts of values -/

namespace Compiler

variable {c : Compiler} {m : Member} {key : String} {qualifier? : Option String}

mutual

theorem isWritten_value : ∀ v : Value, c.ExpressesAll v.raws →
    Ensures (c.dialect.IsWritten v.isSingle) (c.value m qualifier? v)
  | .raw sql, h => .bind_ok fun text htext => .pure (h sql (.head _) m.registry _ text htext)
  | .list items, h => (areWritten_values items h).bind fun _ hparts => .pure hparts.commaList
  | .null, h => isWritten_escape .null h
  | .bool b, h => isWritten_escape (.bool b) h
  | .int n, h => isWritten_escape (.int n) h
  | .float x, h => isWritten_escape (.float x) h
  | .text s, h => isWritten_escape (.text s) h
  | .blob content, h => isWritten_escape (.blob content) h
  | .json document, h => isWritten_escape (.json document) h

theorem areWritten_values : ∀ items : List Value, c.ExpressesAll (Value.rawsOfItems items) →
    Ensures (c.dialect.AreWritten Value.isSingle items) (c.values m qualifier? items)
  | [], _ => .pure .nil
  | item :: rest, h =>
    (isWritten_value item fun sql hsql => h sql (List.mem_append_left _ hsql)).bind fun _ hfirst =>
      (areWritten_values rest fun sql hsql => h sql (List.mem_append_right _ hsql)).bind fun _ hothers =>
        .pure (.cons hfirst hothers)

end

theorem forall₂_values {items : List Value} : Ensures
    (List.Forall₂ (fun v sql => c.value m qualifier? v = .ok sql) items) (c.values m qualifier? items) := by
  induction items with
  | nil => exact .pure .nil
  | cons item rest ih => exact .bind_ok fun first hfirst => ih.bind fun others hothers => .pure (.cons hfirst hothers)

/-! ## Comparisons -/

/-- How a reader takes a comparison apart: one text for each operand behind the column and the sign, and each of them
is one expression if and only if its value is written as one. -/
structure SpellsOut (c : Compiler) (m : Member) (key : String) (qualifier? : Option String)
    (operator : FieldOperator) (v : Value) (sql : Sql) (parts : List Sql) : Prop where
  texts : List.Forall₂ (fun w part => c.value m qualifier? w = .ok part) (operator.operands v) parts
  tokens : c.dialect.tokens sql = operator.reading (c.dialect.tokens (column m key qualifier?))
    (c.dialect.tokens (Sql.commaList parts)) (operator.operands v).isEmpty
  lists_iff : c.dialect.Lists parts ↔ operator.operands v ≠ [] ∧ ∀ w ∈ operator.operands v, w.isSingle = true

namespace SpellsOut

variable {operator : FieldOperator} {v : Value}

/-- Without operands there is nothing to spell out. -/
theorem nil (hoperands : operator.operands v = []) {sql : Sql}
    (htokens : c.dialect.tokens sql = operator.reading (c.dialect.tokens (column m key qualifier?)) [] true) :
    c.SpellsOut m key qualifier? operator v sql [] where
  texts := hoperands ▸ .nil
  tokens := by
    rw [hoperands]
    exact htokens
  lists_iff := iff_of_false (fun h => nomatch h.split) fun h => h.1 hoperands

theorem single (hraws : c.ExpressesAll v.raws) (hoperands : operator.operands v = [v]) {text : Sql}
    (htext : c.value m qualifier? v = .ok text) {sign : String} (hgap : c.dialect.isGap sign.toList = true)
    (hreading : ∀ column values, operator.reading column values false =
      column ++ (c.dialect.lexemes sign.toList ++ values)) :
    c.SpellsOut m key qualifier? operator v (column m key qualifier? ++ .word sign :: text) [text] := by
  have hwritten := isWritten_value v hraws text htext
  refine ⟨hoperands ▸ .cons htext .nil, ?_, ?_⟩
  · rw [hoperands, Dialect.commaList_singleton, List.isEmpty_cons, hreading]
    exact Dialect.tokens_gap (Dialect.IsInert.column m key qualifier?).settles hgap text
  · rw [Dialect.lists_iff (List.forall_mem_singleton.2 hwritten.isWhole) (List.cons_ne_nil _ _), hoperands,
      List.forall_mem_singleton, List.forall_mem_singleton, hwritten.isSingle_iff]
    exact (and_iff_right (List.cons_ne_nil _ _)).symm

theorem list (hraws : c.ExpressesAll (Value.rawsOfItems (operator.operands v))) (hne : operator.operands v ≠ [])
    {texts : List Sql} (htexts : c.values m qualifier? (operator.operands v) = .ok texts) {sign : String}
    (hgap : c.dialect.isGap sign.toList = true)
    (hreading : ∀ column values, operator.reading column values false =
      column ++ (c.dialect.lexemes sign.toList ++ (values ++ [.symbol ')']))) :
    c.SpellsOut m key qualifier? operator v
      (column m key qualifier? ++ .word sign :: Sql.commaList texts ++ [.word ")"]) texts := by
  have hwritten := areWritten_values _ hraws texts htexts
  have hlist := Dialect.IsWhole.commaList hwritten.isWhole
  refine ⟨forall₂_values texts htexts, ?_, ?_⟩
  · have hclose : c.dialect.tokens [.word ")"] = [.symbol ')'] := by cases c.dialect <;> rfl
    rw [List.isEmpty_eq_false_iff.2 hne, hreading, List.append_assoc, List.cons_append,
      Dialect.tokens_gap (Dialect.IsInert.column m key qualifier?).settles hgap,
      Dialect.tokens_append_of_isBreak hlist.settles rfl, hclose]
  · have hsome : texts ≠ [] := by
      rintro rfl
      exact hne (List.forall₂_nil_right_iff.1 hwritten)
    rw [Dialect.lists_iff hwritten.isWhole hsome, hwritten.forall_isSingle_iff]
    exact (and_iff_right hne).symm

end SpellsOut

/-- Whether a predicate is one comparison, with its operands spelled out. -/
def Compares (c : Compiler) (m : Member) (key : String) (qualifier? : Option String) (operator : FieldOperator)
    (v : Value) (p : Predicate) : Prop :=
  ∃ sql parts, p = .ofAtom sql ∧ c.SpellsOut m key qualifier? operator v sql parts

section Operators

variable {operator : FieldOperator} {v : Value} (hraws : c.ExpressesAll v.raws)

include hraws

theorem ensures_compared (hoperands : operator.operands v = [v]) {sign : String}
    (hgap : c.dialect.isGap sign.toList = true)
    (hreading : ∀ column values, operator.reading column values false =
      column ++ (c.dialect.lexemes sign.toList ++ values)) :
    Ensures (c.Compares m key qualifier? operator v)
      (do return Predicate.ofAtom (column m key qualifier? ++ .word sign :: (← c.value m qualifier? v))) :=
  .bind_ok fun text htext => .pure ⟨_, [text], rfl, .single hraws hoperands htext hgap hreading⟩

theorem ensures_tested {sign test : String} (hnull : operator.operands .null = [])
    (hoperands : v.isNull = false → operator.operands v = [v])
    (hgap : c.dialect.isGap sign.toList = true) (hbreak : test.toList.head?.any Dialect.isBreak = true)
    (htest : ∀ column, operator.reading column [] true = column ++ c.dialect.lexemes test.toList)
    (hreading : ∀ column values, operator.reading column values false =
      column ++ (c.dialect.lexemes sign.toList ++ values)) :
    Ensures (c.Compares m key qualifier? operator v)
      (if v.isNull then return Predicate.ofAtom (column m key qualifier? ++ [.word test])
      else do return Predicate.ofAtom (column m key qualifier? ++ .word sign :: (← c.value m qualifier? v))) := by
  split
  · rename_i hv
    cases v <;> cases hv
    refine .pure ⟨_, [], rfl, .nil hnull ?_⟩
    rw [htest, Dialect.tokens_append_of_isBreak (Dialect.IsInert.column m key qualifier?).settles
      (by simpa [Dialect.renderPiece] using hbreak), Dialect.tokens_word]
  · rename_i hv
    exact ensures_compared hraws (hoperands (by simpa using hv)) hgap hreading

theorem ensures_listed_operands {sign empty : String} {items : List Value} (hoperands : operator.operands v = items)
    (hitems : ∀ sql ∈ Value.rawsOfItems items, sql ∈ v.raws) (hgap : c.dialect.isGap sign.toList = true)
    (hempty : ∀ column, operator.reading column [] true = c.dialect.lexemes empty.toList)
    (hreading : ∀ column values, operator.reading column values false =
      column ++ (c.dialect.lexemes sign.toList ++ (values ++ [.symbol ')']))) :
    Ensures (c.Compares m key qualifier? operator v)
      (if items.isEmpty then return Predicate.ofAtom [.word empty]
      else do
        let texts ← c.values m qualifier? items
        return Predicate.ofAtom (column m key qualifier? ++ .word sign :: Sql.commaList texts ++ [.word ")"])) := by
  subst hoperands
  split
  · rename_i hnone
    refine .pure ⟨_, [], rfl, .nil (List.isEmpty_iff.1 hnone) ?_⟩
    rw [hempty, Dialect.tokens_word]
  · rename_i hsome
    exact .bind_ok fun texts htexts => .pure ⟨_, texts, rfl,
      .list (fun sql hsql => hraws sql (hitems sql hsql)) (mt List.isEmpty_iff.2 hsome) htexts hgap hreading⟩

/-- What comes of a comparison, if anything does, spells its operands out. -/
theorem ensures_compares (hkey : m.entity.isStored key = true) (hoperator : operator.comparesValues = true) :
    Ensures (c.Compares m key qualifier? operator v) (c.comparison m key qualifier? operator v) := by
  have hsome {w : Value} (hw : w.isNull = false) :
      FieldOperator.equal.operands w = [w] ∧ FieldOperator.notEqual.operands w = [w] := by
    cases w with
    | null => cases hw
    | _ => exact ⟨rfl, rfl⟩
  unfold comparison
  rw [columnReference_eq_column hkey]
  refine .bind_ok ?_
  rintro _ ⟨⟩
  cases operator
  case equal =>
    refine ensures_tested hraws rfl (fun hv => (hsome hv).1) ?_ rfl ?_ ?_ <;> cases c.dialect <;> intros <;> rfl
  case notEqual =>
    refine ensures_tested hraws rfl (fun hv => (hsome hv).2) ?_ rfl ?_ ?_ <;> cases c.dialect <;> intros <;> rfl
  case less | lessOrEqual | greater | greaterOrEqual =>
    refine ensures_compared hraws rfl ?_ ?_ <;> cases c.dialect <;> intros <;> rfl
  case oneOf | noneOf =>
    dsimp only
    split
    · refine ensures_listed_operands hraws rfl (fun _ h => h) ?_ ?_ ?_ <;> cases c.dialect <;> intros <;> rfl
    · rename_i hlist
      have hsingle : FieldOperator.oneOf.operands v = [v] ∧ FieldOperator.noneOf.operands v = [v] := by
        cases v with
        | list items => exact absurd rfl (hlist items)
        | _ => exact ⟨rfl, rfl⟩
      have hitems : ∀ sql ∈ Value.rawsOfItems [v], sql ∈ v.raws := by simp [Value.rawsOfItems]
      refine ensures_listed_operands hraws (by simp [hsingle]) hitems ?_ ?_ ?_ <;>
        cases c.dialect <;> intros <;> rfl
  all_goals cases hoperator

end Operators

/-- A stored field can be compared with any value without raw SQL. A reader finds the column, the sign of the operator
and one text for each operand, or a test for null, and each text is one expression if and only if no operand is a list,
other than of one such value. -/
theorem compares_operator (c : Compiler) {m : Member} {key : String} (hkey : m.entity.isStored key = true)
    (qualifier? : Option String) {operator : FieldOperator} (hoperator : operator.comparesValues = true) {v : Value}
    (hraws : v.raws = []) :
    ∃ sql parts, c.operator m key qualifier? operator.key (.value v) = .ok (.ofAtom sql) ∧
      c.SpellsOut m key qualifier? operator v sql parts := by
  have hexpands : c.Expands m qualifier? v.raws := by
    rw [hraws]
    exact nofun
  obtain ⟨hpattern, hnegation⟩ : operator.isPattern = false ∧ operator ≠ .negation := by
    cases operator <;> first | exact ⟨rfl, by decide⟩ | cases hoperator
  obtain ⟨p, hp⟩ := exists_comparison_of_not_isPattern ⟨_, columnReference_eq_column hkey qualifier?⟩ hexpands
    hpattern hnegation
  obtain ⟨sql, parts, rfl, hspells⟩ := ensures_compares (expressesAll_of_eq_nil hraws) hkey hoperator p hp
  refine ⟨sql, parts, ?_, hspells⟩
  rw [Compiler.operator, operator.ofKey_key]
  cases operator
  case negation => exact absurd rfl hnegation
  all_goals exact hp

/-- Commas in texts do not count, and a list of one value is written as the value. -/
theorem compares_operator_tags :
    let tag : Entity :=
      { name := "Tag", fields := Assoc.ofPairs [("id", { type := .integer }), ("name", { type := .string })] }
    let m : Member := ⟨Registry.ofList [tag], tag⟩
    let c : Compiler := { dialect := .postgres, expander := fun _ _ => .ok "" }
    let names : Value := .list [.text "a, b", .list [.text "c"], .null]
    (∃ sql parts, c.operator m "name" (some "t") "$nin" (.value names) = .ok (.ofAtom sql) ∧
      Dialect.postgres.render sql = "\"t\".\"name\" NOT IN ('a, b', 'c', NULL)" ∧
      c.SpellsOut m "name" (some "t") .noneOf names sql parts ∧ Dialect.postgres.Lists parts) ∧
    ∃ sql parts, c.operator m "id" none "$ne" (.value .null) = .ok (.ofAtom sql) ∧
      Dialect.postgres.render sql = "\"id\" IS NOT NULL" ∧ c.SpellsOut m "id" none .notEqual .null sql parts := by
  intro tag m c names
  have rendered {name : String} {qualifier? : Option String} {operator : String} {v : Value} {sql : Sql}
      {text : String} (hsql : c.operator m name qualifier? operator (.value v) = .ok (.ofAtom sql))
      (htext : ((c.operator m name qualifier? operator (.value v)).toOption.map fun p =>
        Dialect.postgres.render p.toSql) = some text) : Dialect.postgres.render sql = text := by
    rw [hsql] at htext
    simpa [Predicate.toSql, Predicate.ofAtom, Predicate.Token.toSql, Except.toOption] using htext
  constructor
  · have hkey : m.entity.isStored "name" = true := by decide +kernel
    have hoperator : FieldOperator.noneOf.comparesValues = true := rfl
    have hraws : names.raws = [] := rfl
    obtain ⟨sql, parts, hsql, hspells⟩ := compares_operator c hkey (some "t") hoperator hraws
    refine ⟨sql, parts, hsql, rendered hsql (by decide +kernel), hspells, hspells.lists_iff.2 ?_⟩
    exact ⟨List.cons_ne_nil _ _, by decide +kernel⟩
  · have hkey : m.entity.isStored "id" = true := by decide +kernel
    have hoperator : FieldOperator.notEqual.comparesValues = true := rfl
    have hraws : Value.null.raws = [] := rfl
    obtain ⟨sql, parts, hsql, hspells⟩ := compares_operator c hkey none hoperator hraws
    exact ⟨sql, parts, hsql, rendered hsql (by decide +kernel), hspells⟩

/-- A list of two texts is compared for equality as two expressions, and an empty one as none. -/
theorem compares_lists_of_tag :
    let tag : Entity :=
      { name := "Tag", fields := Assoc.ofPairs [("id", { type := .integer }), ("name", { type := .string })] }
    let m : Member := ⟨Registry.ofList [tag], tag⟩
    let c : Compiler := { dialect := .mysql, expander := fun _ _ => .ok "" }
    let names : Value := .list [.text "a", .text "b"]
    let equal : Sql := [.name "name", .word " = ", .literal "a", .word ", ", .literal "b"]
    m.entity.isStored "name" = true ∧ names.raws = [] ∧
      c.operator m "name" none "$eq" (.value names) = .ok (.ofAtom equal) ∧
      Dialect.mysql.render equal = "`name` = 'a', 'b'" ∧
      (∀ expression, Dialect.mysql.tokens equal =
        Dialect.mysql.tokens (column m "name" none) ++ .symbol '=' :: Dialect.mysql.tokens expression →
          ¬Dialect.mysql.IsSingle expression) ∧
      c.operator m "name" none "$lt" (.value (.list [])) = .ok (.ofAtom [.name "name", .word " < "]) ∧
      c.operator m "name" none "$in" (.value (.list [names])) =
        .ok (.ofAtom [.name "name", .word " IN (", .literal "a", .word ", ", .literal "b", .word ")"]) := by
  intro tag m c names equal
  refine ⟨by decide +kernel, rfl, rfl, by decide +kernel, fun expression htokens hsingle => ?_, rfl, rfl⟩
  have hequal : Dialect.mysql.tokens equal = Dialect.mysql.tokens (column m "name" none) ++
      .symbol '=' :: [.literal "a".toList, .symbol ',', .literal "b".toList] := by decide +kernel
  have hexpression := List.append_cancel_left (htokens.symm.trans hequal)
  rw [List.cons.injEq] at hexpression
  have hsplit := hsingle.split
  rw [hexpression.2] at hsplit
  revert hsplit
  decide +kernel

end Compiler

end EntitySql
