import EntitySql.Compile.Find
import EntitySql.Proofs.Joins.Plan
import EntitySql.Proofs.Reading.Values
/-!
# Leaves of orders

An order is a tree: below the keys of relations stand orders of their own, and its leaves are the fields by which rows
are sorted. The clause has one term for each leaf, depth first, with the direction of the leaf. Only where the order is
not empty but has no leaf, as below a relation without terms, its keywords are left without any term.
-/

namespace EntitySql

open Lexeme Lexer

/-! ## Leaves -/

/-- A field by which an order sorts, at the end of a path of relations. -/
structure OrderLeaf where
  /-- The keys of the relations on the way to the field. -/
  keys : List String
  field : String
  direction : Direction
deriving DecidableEq, Repr

/-- The leaf below a relation. -/
def OrderLeaf.below (key : String) (leaf : OrderLeaf) : OrderLeaf := { leaf with keys := key :: leaf.keys }

mutual

/-- The leaves of the term of a key. -/
def OrderTerm.leaves (key : String) : OrderTerm → List OrderLeaf
  | .direction d => [⟨[], key, d⟩]
  | .nested terms => (OrderTerm.leavesOf terms).map (.below key)
termination_by structural term => term

/-- The leaves of terms, depth first. -/
def OrderTerm.leavesOf : List (String × OrderTerm) → List OrderLeaf
  | [] => []
  | (key, term) :: rest => OrderTerm.leaves key term ++ OrderTerm.leavesOf rest
termination_by structural terms => terms

end

/-- The leaves of an order, depth first. -/
def OrderBy.leaves (order : OrderBy) : List OrderLeaf := OrderTerm.leavesOf order

/-- What follows the column of a leaf. -/
def Direction.lexemes : Direction → List Lexeme
  | ascending => []
  | descending => [.word "DESC".toList]

namespace Compiler

/-- The column of a key of an entity, at the end of a path. Computed fields go by the name of their key. -/
def orderColumn (m : Member) (qualifier? path? : Option String) (key : String) : Sql :=
  if (m.computed? key).isSome then Sql.identifier key
  else
    match (path? <|> qualifier?), m.entity.hasField key with
    | some qualifier, true => column m key (some qualifier)
    | _, _ => Sql.path (m.columnName key)

end Compiler

namespace OrderLeaf

/-- The dotted path of the relations of a leaf, below a path. -/
def path? (leaf : OrderLeaf) (parent? : Option String) : Option String :=
  if leaf.keys.isEmpty then parent? else some (".".intercalate (parent?.toList ++ leaf.keys))

/-- The column of a leaf, if its relations lead to an entity. -/
def column? (leaf : OrderLeaf) (m : Member) (qualifier? parent? : Option String) : Option Sql :=
  (Compiler.memberAt? m leaf.keys).map fun target =>
    Compiler.orderColumn target qualifier? (leaf.path? parent?) leaf.field

variable (leaf : OrderLeaf) (key : String) {m target : Member} (qualifier? parent? : Option String)

theorem path?_below : (leaf.below key).path? parent? = leaf.path? (some (Compiler.aliasPath parent? key)) := by
  have hkeys : (leaf.below key).keys = key :: leaf.keys := rfl
  unfold path?
  rw [hkeys, List.isEmpty_cons, if_neg Bool.false_ne_true, ← Compiler.intercalate_aliasPath]
  split
  · rename_i hnone
    rw [List.isEmpty_iff.1 hnone, String.intercalate_singleton]
  · rfl

theorem column?_below (h : m.related key = .ok target) :
    (leaf.below key).column? m qualifier? parent? =
      leaf.column? target qualifier? (some (Compiler.aliasPath parent? key)) := by
  have hmember : Compiler.memberAt? m (leaf.below key).keys = Compiler.memberAt? target leaf.keys := by
    rw [Compiler.memberAt?, below, List.foldlM_cons, h]
    rfl
  rw [column?, column?, hmember, path?_below]
  rfl

end OrderLeaf

namespace Compiler

variable {c : Compiler}

/-- The term of a leaf. -/
def IsTermOf (m : Member) (qualifier? parent? : Option String) (leaf : OrderLeaf) (sql : Sql) : Prop :=
  ∃ column, leaf.column? m qualifier? parent? = some column ∧ sql = column ++ [.word leaf.direction.sqlSuffix]

mutual

theorem ensures_orderTerm (m : Member) (qualifier? path? : Option String) (key : String) :
    ∀ term : OrderTerm, Ensures (List.Forall₂ (IsTermOf m qualifier? path?) (term.leaves key))
      (c.orderTerm m qualifier? path? key term)
  | .direction d => .pure (.cons ⟨_, rfl, rfl⟩ .nil)
  | .nested terms => .bind_ok fun target htarget sqls hsqls => by
    have hterms := ensures_orderTerms target qualifier? (some (aliasPath path? key)) terms sqls hsqls
    refine List.forall₂_map_left_iff.2 (hterms.imp fun leaf sql hsql => ?_)
    rwa [IsTermOf, leaf.column?_below key qualifier? path? htarget]

theorem ensures_orderTerms (m : Member) (qualifier? path? : Option String) :
    ∀ terms : List (String × OrderTerm),
      Ensures (List.Forall₂ (IsTermOf m qualifier? path?) (OrderTerm.leavesOf terms))
        (c.orderTerms m qualifier? path? terms)
  | [] => .pure .nil
  | (key, term) :: rest =>
    (ensures_orderTerm m qualifier? path? key term).bind fun _ hfirst =>
      (ensures_orderTerms m qualifier? path? rest).bind fun _ hothers => .pure (List.rel_append hfirst hothers)

end

/-- The terms of the leaves, each with its direction behind its column. -/
theorem exists_terms {m : Member} {qualifier? parent? : Option String} {leaves : List OrderLeaf} {texts : List Sql}
    (h : List.Forall₂ (IsTermOf m qualifier? parent?) leaves texts) :
    ∃ terms : List (Sql × Direction), texts = terms.map (fun term => term.1 ++ [.word term.2.sqlSuffix]) ∧
      List.Forall₂ (fun leaf term => leaf.column? m qualifier? parent? = some term.1 ∧ leaf.direction = term.2)
        leaves terms := by
  induction h with
  | nil => exact ⟨[], rfl, .nil⟩
  | @cons leaf _ _ _ hfirst _ ih =>
    obtain ⟨column, hcolumn, rfl⟩ := hfirst
    obtain ⟨terms, rfl, hterms⟩ := ih
    exact ⟨(column, leaf.direction) :: terms, rfl, .cons ⟨hcolumn, rfl⟩ hterms⟩

end Compiler

/-! ## Clauses -/

namespace Dialect

variable {d : Dialect} {sql column : Sql}

theorem IsPlainText.orderColumn (m : Member) (qualifier? path? : Option String) (key : String) :
    d.IsPlainText (Compiler.orderColumn m qualifier? path? key) := by
  unfold Compiler.orderColumn
  split
  · exact .identifier key
  · split
    · exact .column m key _
    · exact .path _

theorem IsPlainText.of_column? {leaf : OrderLeaf} {m : Member} {qualifier? parent? : Option String}
    (h : leaf.column? m qualifier? parent? = some column) : d.IsPlainText column := by
  obtain ⟨target, _, rfl⟩ := Option.map_eq_some_iff.1 h
  exact .orderColumn target qualifier? _ leaf.field

theorem isPlainText_term (h : d.IsPlainText column) (direction : Direction) :
    d.IsPlainText (column ++ [.word direction.sqlSuffix]) ∧
      d.tokens (column ++ [.word direction.sqlSuffix]) = d.tokens column ++ direction.lexemes := by
  cases direction with
  | ascending =>
    have htext : d.characters (column ++ [.word ""]) = d.characters column := by simp [renderPiece]
    have htokens : d.tokens (column ++ [.word ""]) = d.tokens column := congrArg d.lexemes htext
    exact ⟨⟨htext ▸ h.settles, htokens ▸ h.tokens⟩, htokens.trans (List.append_nil _).symm⟩
  | descending =>
    have hword : d.IsPlainText [.word " DESC"] := by cases d <;> exact ⟨rfl, by decide⟩
    have hdesc : d.tokens [.word " DESC"] = [.word "DESC".toList] := by cases d <;> rfl
    exact ⟨h.append hword rfl, (tokens_append_of_isBreak h.settles rfl).trans (congrArg _ hdesc)⟩

/-- Whether a reader of a clause finds one term for each column, in order, with its direction, and no clause at all
where there is no column. -/
def IsOrder (d : Dialect) (sql : Sql) : List (Sql × Direction) → Prop
  | [] => sql = []
  | first :: others => ∃ list, d.tokens sql = .word "ORDER".toList :: .word "BY".toList :: list ∧
      splitCommas 0 list = (first :: others).map (fun term => d.tokens term.1 ++ term.2.lexemes) ∧
      ∀ term ∈ first :: others, d.tokens term.1 ≠ []

theorem isOrder_commaList_iff {terms : List (Sql × Direction)} (h : ∀ term ∈ terms, d.IsPlainText term.1) :
    d.IsOrder (.word " ORDER BY " ::
        Sql.commaList (terms.map fun term => term.1 ++ [.word term.2.sqlSuffix])) terms ↔
      terms ≠ [] ∧ ∀ term ∈ terms, d.tokens term.1 ≠ [] := by
  cases terms with
  | nil => exact iff_of_false nofun fun h => h.1 rfl
  | cons first others =>
    have hwords : (d.scan .blank " ORDER BY ".toList).2 = .blank := by cases d <;> rfl
    have hlexemes : d.lexemes " ORDER BY ".toList = [.word "ORDER".toList, .word "BY".toList] := by cases d <;> rfl
    have hterms : ∀ text ∈ (first :: others).map fun term => term.1 ++ [.word term.2.sqlSuffix],
        d.IsPlainText text := List.forall_mem_map.2 fun term hterm => (isPlainText_term (h term hterm) term.2).1
    have hsplit := (splitCommas_commaList_iff (fun text htext => (hterms text htext).isWhole)
      (List.map_eq_nil_iff.not.2 (List.cons_ne_nil first others))).2
      fun text htext => splitCommas_of_isPlain (hterms text htext).tokens
    refine ⟨fun ⟨_, _, _, hcolumns⟩ => ⟨List.cons_ne_nil _ _, hcolumns⟩, fun hcolumns =>
      ⟨d.tokens (Sql.commaList ((first :: others).map fun term => term.1 ++ [.word term.2.sqlSuffix])),
        ?_, ?_, hcolumns.2⟩⟩
    · rw [tokens_words hwords, hlexemes]
      rfl
    · rw [hsplit, List.map_map]
      exact List.map_congr_left fun term hterm => (isPlainText_term (h term hterm) term.2).2

end Dialect

namespace Compiler

variable {c : Compiler} {m : Member} {order? : Option OrderBy} {qualifier? : Option String} {sql : Sql}

/-- The relations above each leaf of an order lead to an entity, and the clause has one term for each leaf, depth first,
with the column of its field and its direction, if and only if the order has a leaf or nothing at all, and every column
has a name. -/
theorem isOrder_leaves_iff (h : c.orderClause m order? qualifier? = .ok sql) :
    ∃ terms : List (Sql × Direction),
      List.Forall₂ (fun leaf term => leaf.column? m qualifier? none = some term.1 ∧ leaf.direction = term.2)
        (OrderBy.leaves (order?.getD [])) terms ∧
      (c.dialect.IsOrder sql terms ↔
        (order?.getD [] = [] ∨ OrderBy.leaves (order?.getD []) ≠ []) ∧
          ∀ term ∈ terms, c.dialect.tokens term.1 ≠ []) := by
  by_cases hnone : order?.getD [] = []
  · have hsql : sql = [] := by
      match order?, hnone with
      | none, _ | some [], _ =>
        cases h
        rfl
    rw [hnone]
    exact ⟨[], .nil, iff_of_true hsql ⟨.inl rfl, nofun⟩⟩
  · obtain ⟨texts, htexts, rfl⟩ : ∃ texts, c.orderTerms m qualifier? none (order?.getD []) = .ok texts ∧
        sql = .word " ORDER BY " :: Sql.commaList texts := by
      match order?, hnone with
      | some (_ :: _), _ =>
        obtain ⟨texts, htexts, h⟩ := ok_of_bind_eq_ok h
        cases h
        exact ⟨texts, htexts, rfl⟩
    obtain ⟨terms, rfl, hterms⟩ := exists_terms (ensures_orderTerms m qualifier? none _ texts htexts)
    have hplain : ∀ term ∈ terms, c.dialect.IsPlainText term.1 :=
      forall_mem_of_forall₂ (hterms.imp fun _ _ h => .of_column? h.1)
    have hleaves : terms = [] ↔ OrderBy.leaves (order?.getD []) = [] := by
      rw [← List.length_eq_zero_iff, ← hterms.length_eq, List.length_eq_zero_iff]
      rfl
    refine ⟨terms, hterms, ?_⟩
    rw [Dialect.isOrder_commaList_iff hplain, or_iff_right hnone, Ne, hleaves]

/-- An order below two relations, beside a relation that is left without terms. -/
theorem isOrder_leaves_items :
    let id : Field := { type := .integer }
    let whole : Relation := { entity := "item", cardinality := .manyToOne, keyPairs := [⟨"wholeId", "id"⟩] }
    let unit : Relation := { entity := "unit", cardinality := .manyToOne, keyPairs := [⟨"unitId", "id"⟩] }
    let item : Entity :=
      { name := "item"
        fields := Assoc.ofPairs [("id", id), ("wholeId", id), ("unitId", id)]
        relations := Assoc.ofPairs [("whole", whole), ("unit", unit)] }
    let units : Entity :=
      { name := "unit", fields := Assoc.ofPairs [("id", id), ("name", { type := .string, column? := some "label" })] }
    let m : Member := ⟨Registry.ofList [item, units], item⟩
    let c : Compiler := { dialect := .postgres, expander := fun _ _ => .ok "" }
    let order : OrderBy :=
      [("whole", .nested [("unit", .nested [("name", .direction .descending)]), ("id", .direction .ascending)]),
        ("unit", .nested []), ("unitId", .direction .descending)]
    ∃ sql terms, c.orderClause m (some order) (some "item") = .ok sql ∧
      c.dialect.render sql =
        " ORDER BY \"whole.unit\".\"label\" DESC, \"whole\".\"id\", \"item\".\"unitId\" DESC" ∧
      order.leaves = [⟨["whole", "unit"], "name", .descending⟩, ⟨["whole"], "id", .ascending⟩,
        ⟨[], "unitId", .descending⟩] ∧
      List.Forall₂ (fun leaf term => leaf.column? m (some "item") none = some term.1 ∧ leaf.direction = term.2)
        order.leaves terms ∧
      c.dialect.IsOrder sql terms := by
  intro id whole unit item units m c order
  have hstatement : ((c.orderClause m (some order) (some "item")).toOption.map c.dialect.render) =
      some " ORDER BY \"whole.unit\".\"label\" DESC, \"whole\".\"id\", \"item\".\"unitId\" DESC" := by
    decide +kernel
  obtain ⟨sql, hsql, htext⟩ := exists_of_map_toOption_eq_some hstatement
  have hleaves : order.leaves = [⟨["whole", "unit"], "name", .descending⟩, ⟨["whole"], "id", .ascending⟩,
      ⟨[], "unitId", .descending⟩] := by decide +kernel
  have hnamed : ∀ leaf ∈ order.leaves,
      (leaf.column? m (some "item") none).all (fun column => !(c.dialect.tokens column).isEmpty) = true := by
    decide +kernel
  obtain ⟨terms, hterms, horder⟩ := isOrder_leaves_iff hsql
  refine ⟨sql, terms, hsql, htext, hleaves, hterms, horder.2 ⟨.inr ?_, ?_⟩⟩
  · rw [Option.getD_some, hleaves]
    exact List.cons_ne_nil _ _
  · refine forall_mem_of_forall₂ (((List.forall₂_and_left _ _).2 ⟨hnamed, hterms⟩).imp fun leaf term h => ?_)
    simpa [h.2.1] using h.1

/-- Below a relation there are no terms: the keywords stand alone. -/
theorem orders_by_nothing_of_item :
    let id : Field := { type := .integer }
    let unit : Relation := { entity := "unit", cardinality := .manyToOne, keyPairs := [⟨"unitId", "id"⟩] }
    let item : Entity :=
      { name := "item", fields := Assoc.ofPairs [("id", id), ("unitId", id)]
        relations := Assoc.ofPairs [("unit", unit)] }
    let m : Member := ⟨Registry.ofList [item, { name := "unit", fields := Assoc.ofPairs [("id", id)] }], item⟩
    let c : Compiler := { dialect := .mysql, expander := fun _ _ => .ok "" }
    let order : OrderBy := [("unit", .nested [])]
    order.leaves = [] ∧ c.orderClause m (some order) none = .ok [.word " ORDER BY "] ∧
      c.dialect.render [.word " ORDER BY "] = " ORDER BY " := by
  exact ⟨rfl, rfl, by decide +kernel⟩

end Compiler

end EntitySql
