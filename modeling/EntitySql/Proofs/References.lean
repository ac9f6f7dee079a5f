import EntitySql.Proofs.Joins.Columns
import EntitySql.Proofs.Orders
import EntitySql.Proofs.TableText
/-!
# References by key

Filters and groups look a key up in one way, orders in another. A key that is no field may be a dotted path of
relations, which only filters and groups follow, or the alias of an expression, which only they put behind a
qualifier; and the column of a field is one identifier for them, but a path for an order without a qualifier.
`Compiler.render_reference_eq_iff` says for which keys both write the same.
-/

namespace EntitySql

open Lexeme Lexer

/-! ## Keys in two parts -/

namespace Sql

/-- What stands before the first dot has no dot. -/
theorem exists_segments_cons {path : String} (h : '.' ∈ path.toList) :
    ∃ first rest, segments path = first :: rest ∧ first ≠ path := by
  obtain ⟨front, behind, hpath, hfront⟩ := List.eq_append_cons_of_mem h
  refine ⟨String.ofList front, (behind.splitOn '.').map String.ofList, ?_, ?_⟩
  · rw [segments, hpath, List.splitOn_append_cons_self_of_not_mem hfront, List.map_cons]
  · rintro rfl
    rw [String.toList_ofList] at h
    exact hfront h

theorem segments_of_notMem {name : String} (h : '.' ∉ name.toList) : segments name = [name] := by
  rw [segments, List.splitOn_eq_singleton h, List.map_singleton, String.ofList_toList]

/-- What stands behind the last dot of a path is its last identifier. -/
theorem path_append_dot (path : String) {last : String} (hlast : '.' ∉ last.toList) :
    Sql.path (path ++ "." ++ last) = dotted (segments path ++ [last]) := by
  have hkey : ¬(path ++ "." ++ last).isEmpty = true := by simp
  have hparts : segments (path ++ "." ++ last) = segments path ++ segments last := by
    have htoList : (path ++ "." ++ last).toList = path.toList ++ '.' :: last.toList := by simp
    rw [segments, htoList, List.splitOn_append_cons_self, List.map_append, segments, segments]
  rw [Sql.path, if_neg hkey, hparts, segments_of_notMem hlast]
  rfl

end Sql

/-- The two parts of a key. -/
theorem Compiler.splitAtLastDot?_eq_some {key path last : String} (h : splitAtLastDot? key = some (path, last)) :
    key = path ++ "." ++ last ∧ '.' ∉ last.toList := by
  unfold splitAtLastDot? at h
  by_cases hdot : '.' ∈ key.toList.reverse
  · obtain ⟨front, behind, hreversed, hfront⟩ := List.eq_append_cons_of_mem hdot
    have hne : ∀ ch ∈ front, (ch != '.') = true := fun ch hch => bne_iff_ne.2 fun heq => hfront (heq ▸ hch)
    rw [hreversed, if_pos (by simp)] at h
    simp only [List.takeWhile_append_of_pos hne, List.dropWhile_append_of_pos hne] at h
    obtain ⟨rfl, rfl⟩ : String.ofList behind.reverse = path ∧ String.ofList front.reverse = last := by
      simpa using h
    have hkey : key.toList = behind.reverse ++ '.' :: front.reverse := by
      rw [← List.reverse_reverse key.toList, hreversed]
      simp
    refine ⟨?_, by simpa using hfront⟩
    rw [← String.ofList_toList (s := key), hkey]
    simp [← String.toList_inj]
  · rw [if_neg (by simpa using hdot)] at h
    cases h

/-! ## Texts of names with dots -/

namespace Dialect

variable {d : Dialect}

theorem tokens_dot (sql : Sql) : d.tokens (.word "." :: sql) = .symbol '.' :: d.tokens sql := by
  have hdot : (d.scan .blank ".".toList).2 = .blank := by cases d <;> rfl
  have hlexemes : d.lexemes ".".toList = [.symbol '.'] := by cases d <;> rfl
  rw [tokens_words hdot, hlexemes]
  rfl

theorem tokens_name_dot (name : String) (sql : Sql) :
    d.tokens (.name name :: .word "." :: sql) = .name name.toList :: .symbol '.' :: d.tokens sql := by
  have happend : d.tokens ([.name name] ++ .word "." :: sql) = d.tokens [.name name] ++ d.tokens (.word "." :: sql) :=
    tokens_append_of_isBreak (IsPlainText.name name).settles rfl
  rw [tokens_name, tokens_dot] at happend
  exact happend

theorem tokens_identifier_eq_name_iff {name other : String} :
    d.tokens (Sql.identifier name) = [.name other.toList] ↔ other ≠ "" ∧ name = other := by
  by_cases hname : name = ""
  · subst hname
    exact iff_of_false nofun fun h => h.1 h.2.symm
  · rw [Sql.identifier_eq hname, tokens_name, List.cons.injEq, Lexeme.name.injEq, String.toList_inj]
    exact ⟨fun h => ⟨h.1 ▸ hname, h.1⟩, fun h => ⟨h.2, rfl⟩⟩

/-- A column behind a path as one identifier and the whole as a path are the same text only where the path is one
segment. -/
theorem render_joined_eq_iff {path last : String} (hlast : '.' ∉ last.toList) (column : String) :
    d.render (Sql.identifier path ++ .word "." :: Sql.identifier column) =
      d.render (Sql.path (path ++ "." ++ last)) ↔ Sql.IsSegment path ∧ last ≠ "" ∧ column = last := by
  rw [Sql.path_append_dot path hlast]
  constructor
  · intro heq
    have htokens : d.tokens (Sql.identifier path ++ .word "." :: Sql.identifier column) =
        d.tokens (Sql.dotted (Sql.segments path ++ [last])) := by
      rw [tokens, tokens, ← toList_render, ← toList_render, heq]
    by_cases hempty : path = ""
    · subst hempty
      have hleft : d.tokens (Sql.identifier "" ++ .word "." :: Sql.identifier column) =
          .symbol '.' :: d.tokens (Sql.identifier column) := tokens_dot _
      have hright : d.tokens (Sql.dotted (Sql.segments "" ++ [last])) =
          .name [] :: .symbol '.' :: d.tokens [.name last] := tokens_name_dot "" _
      rw [hleft, hright] at htokens
      cases htokens
    · rw [Sql.identifier_eq hempty, List.singleton_append, tokens_name_dot] at htokens
      by_cases hdot : '.' ∈ path.toList
      · obtain ⟨first, rest, hsegments, hne⟩ := Sql.exists_segments_cons hdot
        obtain ⟨next, others, hnext⟩ := List.exists_cons_of_ne_nil (List.append_ne_nil_of_right_ne_nil rest
          (List.cons_ne_nil last []))
        rw [hsegments, List.cons_append, hnext, Sql.dotted_cons_cons, tokens_name_dot, List.cons.injEq,
          Lexeme.name.injEq, String.toList_inj] at htokens
        exact absurd htokens.1.symm hne
      · rw [Sql.segments_of_notMem hdot, List.singleton_append, Sql.dotted_cons_cons, tokens_name_dot,
          List.cons.injEq, List.cons.injEq] at htokens
        exact ⟨⟨hempty, hdot⟩, tokens_identifier_eq_name_iff.1 (htokens.2.2.trans (tokens_name d last))⟩
  · rintro ⟨⟨hempty, hdot⟩, hne, rfl⟩
    rw [Sql.identifier_eq hempty, Sql.identifier_eq hne, Sql.segments_of_notMem hdot]
    rfl

/-- A qualifier is always seen. -/
theorem render_qualifier_append_eq_iff {qualifier : String} (sql : Sql) :
    d.render (Sql.qualifier qualifier ++ sql) = d.render sql ↔ qualifier = "" := by
  constructor
  · intro heq
    by_contra hne
    have hlength := congrArg (fun text : String => text.toList.length) heq
    simp only [toList_render, characters_append, List.length_append, Sql.qualifier_eq hne, characters_cons] at hlength
    have hdot : (d.renderPiece (.word ".")).length = 1 := rfl
    omega
  · rintro rfl
    rfl

end Dialect

/-! ## References -/

namespace Compiler

variable {c : Compiler} {m : Member} {qualifier? : Option String} {key : String}

/-- What filters and groups write for a key that is not computed. -/
def reference (m : Member) (qualifier? : Option String) (key : String) : Sql :=
  if m.entity.hasField key then column m key qualifier?
  else
    match splitAtLastDot? key with
    | none => Sql.qualifier (qualifier?.getD "") ++ Sql.path key
    | some (path, last) =>
      match memberAt? m (Sql.segments path) with
      | some target => Sql.identifier path ++ .word "." :: Sql.identifier (target.columnName last)
      | none => Sql.path key

theorem columnReference_eq_reference (h : m.computed? key = none) (qualifier? : Option String) :
    c.columnReference m key qualifier? = .ok (reference m qualifier? key) := by
  unfold columnReference reference
  rw [Entity.hasField, Assoc.contains_eq_isSome]
  cases hfield : m.entity.fields.get? key with
  | some field =>
    have hplain : field.computed? = none := by
      rw [Member.computed?, hfield] at h
      exact h
    dsimp only
    rw [hplain]
    rfl
  | none =>
    dsimp only
    cases splitAtLastDot? key with
    | none => rfl
    | some parts =>
      dsimp only
      cases memberAt? m (Sql.segments parts.1) <;> rfl

/-- Whether orders write a key as filters and groups do. -/
def SpellsAlike (m : Member) (qualifier? : Option String) (key : String) : Prop :=
  if m.entity.hasField key then qualifier?.isSome = true ∨ '.' ∉ (m.columnName key).toList
  else
    match splitAtLastDot? key with
    | none => qualifier?.getD "" = ""
    | some (path, last) => ∀ target, memberAt? m (Sql.segments path) = some target →
        Sql.IsSegment path ∧ last ≠ "" ∧ target.columnName last = last

theorem render_column_eq_iff (d : Dialect) (name : String) :
    d.render (Sql.identifier name) = d.render (Sql.path name) ↔ '.' ∉ name.toList := by
  by_cases hname : name = ""
  · subst hname
    exact iff_of_true rfl nofun
  · rw [Sql.identifier_eq hname, eq_comm]
    exact d.render_path_eq_iff hname

theorem orderColumn_of_hasField (h : m.computed? key = none) (hfield : m.entity.hasField key = true)
    (qualifier : String) : orderColumn m (some qualifier) none key = column m key (some qualifier) := by
  rw [orderColumn, h, if_neg (by simp), hfield]
  rfl

theorem orderColumn_none (h : m.computed? key = none) : orderColumn m none none key = Sql.path (m.columnName key) := by
  rw [orderColumn, h, if_neg (by simp)]
  rfl

/-- A key that is no field is a path for orders, whatever qualifies the columns. -/
theorem orderColumn_of_not_hasField (hfield : m.entity.hasField key = false) (qualifier? : Option String) :
    orderColumn m qualifier? none key = Sql.path key := by
  have hnone : m.entity.fields.get? key = none := by
    rwa [Entity.hasField, Assoc.contains_eq_isSome, Option.isSome_eq_false_iff, Option.isNone_iff_eq_none] at hfield
  have hcomputed : m.computed? key = none := by rw [Member.computed?, hnone, Option.bind_none]
  have hname : m.columnName key = key := by rw [Member.columnName, hnone]
  rw [orderColumn, hcomputed, if_neg (by simp), hfield, hname]
  cases qualifier? <;> rfl

theorem render_reference_eq_orderColumn_iff (d : Dialect) (h : m.computed? key = none)
    (qualifier? : Option String) :
    d.render (reference m qualifier? key) = d.render (orderColumn m qualifier? none key) ↔
      SpellsAlike m qualifier? key := by
  rw [reference, SpellsAlike]
  by_cases hfield : m.entity.hasField key = true
  · rw [if_pos hfield, if_pos hfield]
    cases qualifier? with
    | some qualifier =>
      rw [orderColumn_of_hasField h hfield]
      exact iff_of_true rfl (.inl rfl)
    | none =>
      rw [orderColumn_none h, or_iff_right (by simp)]
      exact render_column_eq_iff d (m.columnName key)
  · rw [if_neg hfield, if_neg hfield, orderColumn_of_not_hasField (Bool.eq_false_iff.2 hfield)]
    cases hparts : splitAtLastDot? key with
    | none => exact Dialect.render_qualifier_append_eq_iff _
    | some parts =>
      obtain ⟨path, last⟩ := parts
      obtain ⟨rfl, hlast⟩ := splitAtLastDot?_eq_some hparts
      dsimp only
      cases htarget : memberAt? m (Sql.segments path) with
      | none => exact iff_of_true rfl nofun
      | some target =>
        rw [Dialect.render_joined_eq_iff hlast]
        simp

/-- Whether filters and groups write one text for a key, and orders the other. -/
structure Writes (c : Compiler) (m : Member) (qualifier? : Option String) (key : String) (filtered ordered : Sql) :
    Prop where
  reference : c.columnReference m key qualifier? = .ok filtered
  /-- Wherever a filter of rows or of groups compares something under the key, it compares the column. -/
  compared : ∀ {filter options p}, options.qualifier? = qualifier? →
    c.filterPredicate m (some filter) options = .ok p → ∀ {condition}, filter.Holds key (.field condition) →
    ∀ {operator v}, condition.Compares operator v → ∃ sql, .atom sql ∈ p ∧ ComparesColumn filtered v sql
  grouped : ∀ {keys sql}, key ∈ keys → c.groupClause m keys qualifier? = .ok sql →
    ∃ columns, sql = .word " GROUP BY " :: Sql.commaList columns ∧ filtered ∈ columns
  term : ∀ direction, c.orderTerm m qualifier? none key (.direction direction) =
    .ok [ordered ++ [.word direction.sqlSuffix]]
  sorted : ∀ {order : OrderBy} {direction sql}, (key, .direction direction) ∈ order →
    c.orderClause m (some order) qualifier? = .ok sql →
    ∃ terms, sql = .word " ORDER BY " :: Sql.commaList terms ∧ ordered ++ [.word direction.sqlSuffix] ∈ terms

theorem writes_of_computed?_eq_none (h : m.computed? key = none) (qualifier? : Option String) :
    c.Writes m qualifier? key (reference m qualifier? key) (orderColumn m qualifier? none key) := by
  have hreference := columnReference_eq_reference (c := c) h qualifier?
  refine ⟨hreference, fun hoptions hp _ hholds _ _ hcompares => ?_, fun hkey hgroup => ?_, fun direction => rfl,
    fun {order _ sql} hterm horder => ?_⟩
  · exact exists_comparesColumn (hoptions ▸ hreference) hholds hcompares hp
  · rw [groupClause, if_neg fun hempty => List.ne_nil_of_mem hkey (List.isEmpty_iff.1 hempty)] at hgroup
    obtain ⟨columns, hcolumns, hgroup⟩ := ok_of_bind_eq_ok hgroup
    cases hgroup
    obtain ⟨column, hcolumn, hfound⟩ := exists_mem_of_mapM_eq_ok hcolumns hkey
    cases hreference.symm.trans hfound
    exact ⟨columns, rfl, hcolumn⟩
  · obtain ⟨terms, hterms, rfl⟩ : ∃ terms, c.orderTerms m qualifier? none order = .ok terms ∧
        sql = .word " ORDER BY " :: Sql.commaList terms := by
      match order, hterm with
      | _ :: _, _ =>
        obtain ⟨terms, hterms, horder⟩ := ok_of_bind_eq_ok horder
        cases horder
        exact ⟨terms, hterms, rfl⟩
    obtain ⟨found, hfound, hsub⟩ := exists_orderTerm hterms hterm
    cases hfound
    exact ⟨terms, rfl, hsub (.head _)⟩

/-- Filters, groups and orders find some column for every key that is not computed, and it is the same text if and
only if the key is a field whose column is qualified or has no dot, another name without dots where nothing qualifies
the columns, a path that leads nowhere, or a relation with a field that is called like its column. -/
theorem render_reference_eq_iff (h : m.computed? key = none) (qualifier? : Option String) :
    ∃ filtered ordered, c.Writes m qualifier? key filtered ordered ∧
      (c.dialect.render filtered = c.dialect.render ordered ↔ SpellsAlike m qualifier? key) :=
  ⟨_, _, writes_of_computed?_eq_none h qualifier?, render_reference_eq_orderColumn_iff c.dialect h qualifier?⟩

/-- A field of a relation that is called like its column. -/
theorem render_reference_eq_items :
    let id : Field := { type := .integer }
    let unit : Relation := { entity := "unit", cardinality := .manyToOne, keyPairs := [⟨"unitId", "id"⟩] }
    let item : Entity :=
      { name := "item", fields := Assoc.ofPairs [("id", id), ("unitId", id)]
        relations := Assoc.ofPairs [("unit", unit)] }
    let units : Entity := { name := "unit", fields := Assoc.ofPairs [("id", id), ("name", { type := .string })] }
    let m : Member := ⟨Registry.ofList [item, units], item⟩
    let c : Compiler := { dialect := .postgres, expander := fun _ _ => .ok "" }
    m.computed? "unit.name" = none ∧ ∃ filtered ordered, c.Writes m (some "item") "unit.name" filtered ordered ∧
      c.dialect.render filtered = c.dialect.render ordered := by
  intro id unit item units m c
  have hplain : m.computed? "unit.name" = none := by decide +kernel
  obtain ⟨filtered, ordered, hwrites, hiff⟩ := render_reference_eq_iff (c := c) hplain (some "item")
  refine ⟨hplain, filtered, ordered, hwrites, hiff.2 ?_⟩
  have hfield : m.entity.hasField "unit.name" = false := by decide +kernel
  have hparts : splitAtLastDot? "unit.name" = some ("unit", "name") := by decide +kernel
  have hname : (memberAt? m (Sql.segments "unit")).all (fun target => target.columnName "name" == "name") = true := by
    decide +kernel
  rw [SpellsAlike, hfield, if_neg Bool.false_ne_true, hparts]
  intro target htarget
  rw [htarget] at hname
  exact ⟨by decide, by decide, by simpa using hname⟩

/-- The filter finds the column of the field of the relation, and the order takes the key for its name. -/
theorem orders_by_key_of_unit :
    let id : Field := { type := .integer }
    let unit : Relation := { entity := "unit", cardinality := .manyToOne, keyPairs := [⟨"unitId", "id"⟩] }
    let item : Entity :=
      { name := "item", fields := Assoc.ofPairs [("id", id), ("unitId", id)]
        relations := Assoc.ofPairs [("unit", unit)] }
    let units : Entity :=
      { name := "unit", fields := Assoc.ofPairs [("id", id), ("name", { type := .string, column? := some "label" })] }
    let m : Member := ⟨Registry.ofList [item, units], item⟩
    let c : Compiler := { dialect := .postgres, expander := fun _ _ => .ok "" }
    let query : Query :=
      { projection? := some (.map [("unit", .flag true)])
        criterion? := some (.filter [("unit.name", .field (.value (.text "kg")))])
        order? := some [("unit.name", .direction .ascending)] }
    m.computed? "unit.name" = none ∧ (c.criteria m query {}).toOption.map c.dialect.render =
      some " WHERE \"unit\".\"label\" = 'kg' ORDER BY \"unit\".\"name\"" := by
  decide +kernel

end Compiler

end EntitySql
