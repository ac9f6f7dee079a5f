import EntitySql.Proofs.Redaction.Find
import EntitySql.Proofs.Request
/-!
# No text leaves its literal

Two requests that differ in their texts alone compile to statements with the same tokens but for the
contents of string literals, or fail alike. Whatever characters a text holds and wherever it stands,
it neither ends its literal nor adds, removes or changes another token.
-/

namespace EntitySql

/-! ## Values and records -/

/-- Two values that differ in their texts alone and hold no raw SQL that is not confined. -/
structure Value.Twin (c : Compiler) (v w : Value) : Prop where
  redacted : v.redacted = w.redacted
  left : c.ConfinesAll v.raws
  right : c.ConfinesAll w.raws

theorem Value.Twin.refl {c : Compiler} {v : Value} (h : c.ConfinesAll v.raws) : v.Twin c v :=
  ⟨rfl, h, h⟩

/-- Two entries of records under the same key. -/
def Record.EntryTwin (c : Compiler) (a b : String × Value) : Prop := a.1 = b.1 ∧ a.2.Twin c b.2

/-- Two records with the same keys that differ in their texts alone. -/
def Record.Twin (c : Compiler) (a b : Record) : Prop :=
  List.Forall₂ (EntryTwin c) a.entries b.entries

namespace Record.Twin

variable {c : Compiler} {a b : Record}

theorem empty : Twin c Assoc.empty Assoc.empty := List.Forall₂.nil

theorem redacted (h : c.ConfinesAll (raws a)) : Twin c a (Record.redacted a) := by
  refine List.forall₂_map_right_iff.2 (List.forall₂_same.2 fun entry hentry => ⟨rfl, ?_⟩)
  have hvalue : c.ConfinesAll entry.2.raws := h.of_mem (List.mem_map_of_mem hentry)
  exact ⟨entry.2.redacted_redacted.symm, hvalue, entry.2.raws_redacted.symm ▸ hvalue⟩

/-- Twins have the same keys, and the values under a key are twins. -/
theorem keys_eq (h : Twin c a b) : a.keys = b.keys := by
  have hkeys := h.imp fun _ _ hentry => hentry.1
  exact List.forall₂_eq_eq_eq ▸ (List.forall₂_map_left_iff.2 (List.forall₂_map_right_iff.2 hkeys))

theorem contains_eq (h : Twin c a b) (key : String) : a.contains key = b.contains key := by
  have hkeys (r : Record) : r.contains key = r.keys.any (· == key) := by
    simp [Assoc.contains, Entries.has, Assoc.keys, List.any_map, Function.comp_def]
  rw [hkeys, hkeys, h.keys_eq]

theorem get? (h : Twin c a b) (key : String) :
    Option.Rel (Value.Twin c) (a.get? key) (b.get? key) := by
  unfold Assoc.get?
  unfold Twin at h
  generalize a.entries = as at h ⊢
  generalize b.entries = bs at h ⊢
  induction h with
  | nil => exact .none
  | @cons x y _ _ hentry _ ih =>
    rw [Entries.find?, Entries.find?, hentry.1]
    split
    · exact .some hentry.2
    · exact ih

theorem insert (h : Twin c a b) (key : String) {value : Value} (hvalue : c.ConfinesAll value.raws) :
    Twin c (Assoc.insert a key value) (Assoc.insert b key value) := by
  simp only [Twin, Assoc.insert]
  unfold Twin at h
  generalize a.entries = as at h ⊢
  generalize b.entries = bs at h ⊢
  induction h with
  | nil => exact .cons ⟨rfl, .refl hvalue⟩ .nil
  | @cons x y _ _ hentry hrest ih =>
    rw [Entries.put, Entries.put, hentry.1]
    split
    · exact .cons ⟨rfl, .refl hvalue⟩ hrest
    · exact .cons ⟨rfl, hentry.2⟩ ih

end Record.Twin

namespace Compiler

variable {c : Compiler}

theorem twin_completed (e : Entity) (supply : Field → Option Value)
    (hsupply : ∀ field ∈ e.fields.values, ∀ value ∈ supply field, c.ConfinesAll value.raws)
    {a b : Record} (h : Record.Twin c a b) :
    Record.Twin c (completed e supply a) (completed e supply b) := by
  have hfields : List.Forall₂ (fun x y : String × Field => x = y ∧ x.2 ∈ e.fields.values)
      e.fields.entries e.fields.entries :=
    List.forall₂_same.2 fun x hx => ⟨rfl, List.mem_map_of_mem hx⟩
  refine List.rel_foldl ?_ h hfields
  rintro a b h ⟨key, field⟩ _ ⟨rfl, hfield⟩
  simp only [h.contains_eq key]
  split
  · split
    · exact h
    · exact h.insert key (hsupply field hfield _ ‹_›)
  · exact h

theorem twin_jsonLiteral {d : Dialect} {a b : Sql} (h : Sql.Twin d a b) :
    Sql.Twin d (d.jsonLiteral a) (d.jsonLiteral b) := by
  cases d with
  | postgres => exact h.append (.single .word)
  | mysql | mariadb =>
    exact (Sql.Twin.cons .word h).append (.single .word)
  | sqlite => exact h

theorem agree_storedValue_redacted (m : Member) (key : String) {v : Value}
    (h : c.ConfinesAll v.raws) :
    Agree (Sql.Twin c.dialect) (c.storedValue m key v) (c.storedValue m key v.redacted) := by
  have hjson (s t : String) : Agree (Sql.Twin c.dialect)
      (pure (c.dialect.jsonLiteral [.literal s])) (pure (c.dialect.jsonLiteral [.literal t])) :=
    .pure (twin_jsonLiteral (.single (.literal s t)))
  have hescape := agree_escape v h
  have hvector (s t : String) : Agree (Sql.Twin c.dialect) (pure [.literal s])
      (pure [.literal t]) := .pure (.single (.literal s t))
  unfold storedValue
  generalize (m.entity.fields.get? key).map (·.type) = type?
  cases v with
  | raw sql => exact agree_raw m h.single none
  | null => exact .pure (.single .word)
  | list items =>
    match type? with
    | some .json => exact hjson _ _
    | some .vector => exact hvector _ _
    | none | some .string | some .text | some .smallInt | some .integer | some .bigInt
    | some .float | some .double | some .decimal | some .boolean | some .date | some .time
    | some .timestamp | some .uuid | some .blob => exact hescape
  | bool | int | float | text | blob | json =>
    match type? with
    | some .json => exact hjson _ _
    | none | some .string | some .text | some .smallInt | some .integer | some .bigInt
    | some .float | some .double | some .decimal | some .boolean | some .date | some .time
    | some .timestamp | some .uuid | some .blob | some .vector => exact hescape

theorem agree_storedValue (m : Member) (key : String) {v w : Value} (h : v.Twin c w) :
    Agree (Sql.Twin c.dialect) (c.storedValue m key v) (c.storedValue m key w) := by
  have hv := agree_storedValue_redacted m key h.left
  have hw := agree_storedValue_redacted m key h.right
  rw [h.redacted] at hv
  exact hv.trans hw.symm fun _ _ _ hvr hwr => hvr.trans hwr.symm

/-! ## Rows -/

theorem agree_rowOf (m : Member) (keys : List String) {a b : Record} (h : Record.Twin c a b) :
    Agree (Sql.Twin c.dialect) (c.rowOf m keys a) (c.rowOf m keys b) := by
  refine .bind (Agree.mapM (S := Sql.Twin c.dialect) (List.forall₂_same.2 fun key _ => ?_))
    fun _ _ hrow => .pure (.parenthesized (.commaList hrow))
  have hget := h.get? key
  generalize a.get? key = value? at hget ⊢
  generalize b.get? key = other? at hget ⊢
  cases hget with
  | none => exact .pure (.single .word)
  | some hvalue => exact agree_storedValue m key hvalue

theorem twin_columnsOf {d : Dialect} (m : Member) (keys : List String) :
    List.Forall₂ (Sql.Twin d) (columnsOf m keys) (columnsOf m keys) :=
  List.forall₂_same.2 fun sql hsql => by
    obtain ⟨key, _, rfl⟩ := List.mem_map.1 hsql
    exact .identifier _

/-- What a field of the entity supplies is raw SQL of the entity. -/
theorem confinesAll_supplied {m : Member} (hm : c.ConfinesAll m.raws) {field : Field}
    (hfield : field ∈ m.entity.fields.values) :
    (∀ value ∈ field.onInsert?, c.ConfinesAll value.raws) ∧
      (∀ value ∈ field.onUpdate?, c.ConfinesAll value.raws) ∧
      ∀ value ∈ field.onDelete?, c.ConfinesAll value.raws := by
  have hraws : c.ConfinesAll field.raws := hm.left.of_mem hfield
  unfold Field.raws at hraws
  have hsupplied {value? : Option Value} (h : c.ConfinesAll (value?.toList.flatMap Value.raws)) :
      ∀ value ∈ value?, c.ConfinesAll value.raws := fun value hvalue =>
    h.of_mem (Option.mem_toList.2 hvalue)
  exact ⟨hsupplied hraws.left.left.right, hsupplied hraws.left.right, hsupplied hraws.right⟩

theorem agree_insertRows {m : Member} (hm : c.ConfinesAll m.raws) {as bs : List Record}
    (h : List.Forall₂ (Record.Twin c) as bs) :
    Agree (fun x y => Sql.Twin c.dialect x.1 y.1 ∧ x.2 = y.2) (c.insertRows m as)
      (c.insertRows m bs) := by
  have hcompleted : List.Forall₂ (Record.Twin c) (as.map (completed m.entity (·.onInsert?)))
      (bs.map (completed m.entity (·.onInsert?))) := by
    refine List.forall₂_map_left_iff.2 (List.forall₂_map_right_iff.2 (h.imp fun _ _ hab => ?_))
    exact twin_completed m.entity _ (fun _ hfield => (confinesAll_supplied hm hfield).1) hab
  unfold insertRows
  generalize as.map (completed m.entity (·.onInsert?)) = records at hcompleted
  generalize bs.map (completed m.entity (·.onInsert?)) = others at hcompleted
  cases hcompleted with
  | nil => exact .error _
  | cons hfirst hrest =>
    simp only [hfirst.keys_eq]
    split
    · exact .error _
    · have hrows (keys : List String) := (List.Forall₂.cons hfirst hrest).imp fun _ _ hab =>
        agree_rowOf m keys hab
      refine (Agree.mapM (hrows _)).bind fun _ _ hsqls => .pure ⟨?_, rfl⟩
      exact (((Sql.Twin.cons .word (.path _)).append
        (.cons .word (.commaList (twin_columnsOf m _)))).append
        (.cons .word (.commaList hsqls)))

theorem twin_returningClause (m : Member) :
    Sql.Twin c.dialect (c.returningClause m) (c.returningClause m) := by
  unfold returningClause
  split
  · exact (Sql.Twin.cons .word (.identifier _)).append
      (.cons .word (.single (.name "id")))
  · exact .nil

theorem twin_conflictClause {d : Dialect} {conflict update : List Sql}
    (hconflict : List.Forall₂ (Sql.Twin d) conflict conflict)
    (hupdate : List.Forall₂ (Sql.Twin d) update update) :
    Sql.Twin d (d.conflictClause conflict update) (d.conflictClause conflict update) := by
  have hself {sqls : List Sql} (h : List.Forall₂ (Sql.Twin d) sqls sqls) {f : Sql → Sql}
      (hf : ∀ sql, Sql.Twin d sql sql → Sql.Twin d (f sql) (f sql)) :
      List.Forall₂ (Sql.Twin d) (sqls.map f) (sqls.map f) := by
    apply List.forall₂_same.2
    intro sql hsql
    obtain ⟨column, hcolumn, rfl⟩ := List.mem_map.1 hsql
    exact hf column (List.forall₂_same.1 h column hcolumn)
  unfold Dialect.conflictClause
  split
  · refine .cons .word ?_
    split
    · exact .nil
    · have hcolumn := List.forall₂_same.1 hconflict _ (.head _)
      exact hcolumn.append (.cons .word hcolumn)
    · exact .commaList (hself hupdate fun _ hcolumn => (hcolumn.append
        (.cons .word hcolumn)).append (.single .word))
  · have hhead : Sql.Twin d (.word " ON CONFLICT (" :: Sql.commaList conflict)
        (.word " ON CONFLICT (" :: Sql.commaList conflict) :=
      .cons .word (.commaList hconflict)
    simp only
    split
    · exact hhead.append (.single .word)
    · exact hhead.append (.cons .word (.commaList (hself hupdate
        fun _ hcolumn => hcolumn.append (.cons .word hcolumn))))

theorem agree_insert {m : Member} (hm : c.ConfinesAll m.raws) {as bs : List Record}
    (h : List.Forall₂ (Record.Twin c) as bs) :
    Agree (Sql.Twin c.dialect) (c.insert m as) (c.insert m bs) :=
  (agree_insertRows hm h).bind fun _ _ hrows => .pure (hrows.1.append (twin_returningClause m))

theorem agree_upsert {m : Member} (hm : c.ConfinesAll m.raws) (conflictKeys : List String)
    {a b : Record} (h : Record.Twin c a b) :
    Agree (Sql.Twin c.dialect) (c.upsert m conflictKeys a) (c.upsert m conflictKeys b) := by
  apply (agree_insertRows hm (.cons h .nil)).bind
  intro _ _ hrows
  simp only [hrows.2]
  exact .pure ((hrows.1.append
    (twin_conflictClause (twin_columnsOf m _) (twin_columnsOf m _))).append
    (twin_returningClause m))

theorem agree_updateRows {m : Member} {criterion? other? : Option Criterion}
    (hrows : ∀ options, Agree (Sql.Twin c.dialect) (c.criterionClause m criterion? options)
      (c.criterionClause m other? options)) {a b : Record} (h : Record.Twin c a b)
    (softDelete? : Option Bool) :
    Agree (Sql.Twin c.dialect) (c.updateRows m criterion? a softDelete?)
      (c.updateRows m other? b softDelete?) := by
  have hstored : List.Forall₂ (Record.EntryTwin c)
      (a.entries.filter fun entry => m.entity.isStored entry.1)
      (b.entries.filter fun entry => m.entity.isStored entry.1) :=
    List.rel_filter (fun x y hentry => iff_of_eq (congrArg (m.entity.isStored · = true) hentry.1)) h
  have hsets := hstored.imp fun x y hentry => show Agree (Sql.Twin c.dialect)
      (do return Sql.identifier (m.columnName x.1) ++ .word " = " :: (← c.storedValue m x.1 x.2))
      (do return Sql.identifier (m.columnName y.1) ++ .word " = " :: (← c.storedValue m y.1 y.2)) by
    rw [hentry.1]
    exact (agree_storedValue m y.1 hentry.2).bind fun _ _ hvalue =>
      .pure ((Sql.Twin.identifier _).append (.cons .word hvalue))
  apply (Agree.mapM hsets).bind
  intro first second hsqls
  have hempty : first.isEmpty = second.isEmpty := by cases hsqls <;> rfl
  simp only [hempty]
  split
  · exact .error _
  · exact (hrows _).bind fun _ _ hclause =>
      .pure (((Sql.Twin.cons .word (.path _)).append
        (.cons .word (.commaList hsqls))).append hclause)

theorem agree_update {m : Member} (hm : c.ConfinesAll m.raws) {criterion? other? : Option Criterion}
    (hrows : ∀ options, Agree (Sql.Twin c.dialect) (c.criterionClause m criterion? options)
      (c.criterionClause m other? options)) {a b : Record} (h : Record.Twin c a b)
    (softDelete? : Option Bool) :
    Agree (Sql.Twin c.dialect) (c.update m criterion? a softDelete?)
      (c.update m other? b softDelete?) :=
  agree_updateRows hrows
    (twin_completed m.entity _ (fun _ hfield => (confinesAll_supplied hm hfield).2.1) h) softDelete?

/-- The mark of a deleted row is what a field supplies, or the name of the current time. -/
theorem confinesAll_deletionMark {m : Member} (hm : c.ConfinesAll m.raws) (key : String) :
    c.ConfinesAll (deletionMark m.entity key).raws := by
  have hdefault : c.ConfinesAll (Value.raw (.literal "CURRENT_TIMESTAMP")).raws := by
    intro sql hsql
    rw [List.mem_singleton.1 hsql]
    exact Confines.of_literal (.of_isPlain _ (by decide))
  unfold deletionMark
  cases hfield : m.entity.fields.get? key with
  | none => exact hdefault
  | some field =>
    cases hmark : field.onDelete? with
    | none => simpa [hmark] using hdefault
    | some mark =>
      have hsupplied := (confinesAll_supplied hm (Assoc.mem_values_of_get? hfield)).2.2
      simpa [hmark] using hsupplied mark hmark

theorem agree_delete {m : Member} (hm : c.ConfinesAll m.raws) {criterion? other? : Option Criterion}
    (hrows : ∀ options, Agree (Sql.Twin c.dialect) (c.criterionClause m criterion? options)
      (c.criterionClause m other? options)) (softDelete? : Option Bool) :
    Agree (Sql.Twin c.dialect) (c.delete m criterion? softDelete?)
      (c.delete m other? softDelete?) := by
  have hremove : Agree (Sql.Twin c.dialect) (c.removeRows m criterion?)
      (c.removeRows m other?) :=
    (hrows _).bind fun _ _ hclause =>
      .pure ((Sql.Twin.cons .word (.path _)).append hclause)
  have hmark (key : String) : Record.Twin c
      ((Assoc.empty : Record).insert key (deletionMark m.entity key))
      ((Assoc.empty : Record).insert key (deletionMark m.entity key)) :=
    Record.Twin.empty.insert key (confinesAll_deletionMark hm key)
  unfold delete
  split
  · exact .error _
  · exact hremove
  · exact hremove
  · exact agree_updateRows hrows (hmark _) _

end Compiler

/-! ## Requests -/

namespace Request

/-- The request with its texts emptied. -/
def redacted : Request → Request
  | .find query options => .find query.redacted options
  | .count query options => .count query.redacted options
  | .insert records => .insert (records.map Record.redacted)
  | .upsert conflictKeys record => .upsert conflictKeys (Record.redacted record)
  | .update criterion? record softDelete? =>
    .update (criterion?.map Criterion.redacted) (Record.redacted record) softDelete?
  | .delete criterion? softDelete? => .delete (criterion?.map Criterion.redacted) softDelete?

/-- The raw SQL in a request. -/
def raws : Request → List RawSql
  | .find query _ | .count query _ => query.raws
  | .insert records => records.flatMap Record.raws
  | .upsert _ record => Record.raws record
  | .update criterion? record _ => criterion?.toList.flatMap Criterion.raws ++ Record.raws record
  | .delete criterion? _ => criterion?.toList.flatMap Criterion.raws

end Request

namespace Compiler

variable {c : Compiler}

theorem agree_statement_redacted {m : Member} (hm : c.ConfinesAll m.raws) {r : Request}
    (h : c.ConfinesAll r.raws) :
    Agree (Sql.Twin c.dialect) (c.statement m r) (c.statement m r.redacted) := by
  cases r with
  | find query options => exact agree_find hm query options h
  | count query options => exact agree_count hm query options h
  | insert records =>
    refine agree_insert hm
      (List.forall₂_map_right_iff.2 (List.forall₂_same.2 fun record hrecord => ?_))
    exact .redacted (h.of_mem hrecord)
  | upsert conflictKeys record => exact agree_upsert hm conflictKeys (.redacted h)
  | update criterion? record softDelete? =>
    exact agree_update hm (fun options => agree_criterionClause hm criterion? options h.left)
      (.redacted h.right) softDelete?
  | delete criterion? softDelete? =>
    exact agree_delete hm (fun options => agree_criterionClause hm criterion? options h) softDelete?

/-- Requests with the same redacted form compile to twins. -/
theorem agree_statement {m : Member} (hm : c.ConfinesAll m.raws) {r s : Request}
    (h : r.redacted = s.redacted) (hr : c.ConfinesAll r.raws) (hs : c.ConfinesAll s.raws) :
    Agree (Sql.Twin c.dialect) (c.statement m r) (c.statement m s) := by
  have hleft := agree_statement_redacted hm hr
  rw [h] at hleft
  exact hleft.trans (agree_statement_redacted hm hs).symm fun _ _ _ hac hbc => hac.trans hbc.symm

/-- No text leaves its literal: requests that differ in their texts alone compile to statements with
the same tokens but for the contents of literals, or fail alike, and no statement leaves a quotation
or a comment open. Raw SQL, if there is any, is taken to be confined. -/
theorem lexemes_eq_but_for_literals (m : Member) (r s : Request) (h : r.redacted = s.redacted)
    (hm : c.ConfinesAll m.raws) (hr : c.ConfinesAll r.raws) (hs : c.ConfinesAll s.raws) :
    Agree (fun a b =>
        (c.dialect.lexemes (c.dialect.render a).toList).map Lexeme.redacted =
          (c.dialect.lexemes (c.dialect.render b).toList).map Lexeme.redacted ∧
        c.dialect.Settles (c.dialect.render a).toList ∧
        c.dialect.Settles (c.dialect.render b).toList)
      (c.statement m r) (c.statement m s) := by
  apply (agree_statement hm h hr hs).mono
  intro a b hab
  simp only [Dialect.toList_render]
  exact ⟨c.dialect.redacted_lexemes hab, hab.complete.settles, hab.symm.complete.settles⟩

/-- A text that would close a literal under the rules of another dialect stays inside its own. -/
theorem lexemes_eq_but_for_literals_backslash :
    let c : Compiler := { dialect := .mysql, expander := fun _ _ => .ok "" }
    let m : Member :=
      { registry := {}
        entity :=
          { name := "User"
            fields := (Assoc.empty : Assoc Field).insert "name" { type := .string } } }
    let request (text : String) : Request :=
      .find { criterion? := some (.filter
        [("name", .field (.operators [("$includes", .value (.text text))]))]) } {}
    (c.statement m (request "\\' OR 1 = 1 -- ")).map c.dialect.render =
        .ok "SELECT `name` FROM `User` WHERE `name` LIKE '%\\\\'' OR 1 = 1 -- %'" ∧
      (request "\\' OR 1 = 1 -- ").redacted = (request "x").redacted ∧
      c.ConfinesAll m.raws ∧ c.ConfinesAll (request "\\' OR 1 = 1 -- ").raws ∧
      c.ConfinesAll (request "x").raws ∧
      Agree (fun a b =>
          (c.dialect.lexemes (c.dialect.render a).toList).map Lexeme.redacted =
            (c.dialect.lexemes (c.dialect.render b).toList).map Lexeme.redacted ∧
          c.dialect.Settles (c.dialect.render a).toList ∧
          c.dialect.Settles (c.dialect.render b).toList)
        (c.statement m (request "\\' OR 1 = 1 -- ")) (c.statement m (request "x")) := by
  intro c m request
  refine ⟨by decide +kernel, rfl, .nil, .nil, .nil, ?_⟩
  exact lexemes_eq_but_for_literals _ _ _ rfl .nil .nil .nil

end Compiler

end EntitySql
