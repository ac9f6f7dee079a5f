import EntitySql.Proofs.Reading.Inert
/-!
# Lists between commas

A reader of a list looks for the commas outside quotes and outside all parentheses. What stands between two of them
is a part of the list, however it came there: a list of texts has one part for each text if and only if no text has a
comma of its own (`Dialect.splitCommas_commaList_iff`).
-/

namespace EntitySql

open Lexeme Lexer

/-! ## Tokens -/

namespace Lexeme

/-- How many parentheses are open behind a token with the role. -/
def Role.depthBehind : Role → Nat → Nat
  | .opening, depth => depth + 1
  | .closing, depth => depth - 1
  | _, depth => depth

/-- The parts of a text, inside so many parentheses, between the commas outside of all of them. -/
def splitCommas : Nat → List Lexeme → List (List Lexeme)
  | _, [] => [[]]
  | depth, t :: rest =>
    if depth = 0 ∧ t = .symbol ',' then [] :: splitCommas 0 rest
    else (splitCommas (t.role.depthBehind depth) rest).modifyHead (t :: ·)

/-- A text that closes the parentheses that it opens. -/
def IsClosed (ts : List Lexeme) : Prop := ∃ roles, outline 0 ts = some roles

variable {ts us : List Lexeme} {t : Lexeme} {depth : Nat} {roles : List Role}

theorem depthBehind_of_enter {role : Role} {next : Nat} {seen : List Role}
    (h : enter depth role = some (next, seen)) : role.depthBehind depth = next := by
  cases role <;> cases depth <;> simp_all [enter, Role.depthBehind]

theorem splitCommas_cons_of_not (h : ¬(depth = 0 ∧ t = .symbol ',')) (ts : List Lexeme) :
    splitCommas depth (t :: ts) = (splitCommas (t.role.depthBehind depth) ts).modifyHead (t :: ·) := by
  rw [splitCommas, if_neg h]

theorem splitCommas_ne_nil (depth : Nat) (ts : List Lexeme) : splitCommas depth ts ≠ [] := by
  induction ts generalizing depth with
  | nil => exact List.cons_ne_nil _ _
  | cons t rest ih =>
    rw [splitCommas]
    split
    · exact List.cons_ne_nil _ _
    · exact List.modifyHead_eq_nil_iff.not.2 (ih _)

theorem modifyHead_append {α : Type} (f : α → α) {first : List α} (hne : first ≠ []) (second : List α) :
    (first ++ second).modifyHead f = first.modifyHead f ++ second := by
  cases first with
  | nil => exact absurd rfl hne
  | cons a rest => rfl

/-- A comma behind a text that closes its parentheses ends a part. -/
theorem splitCommas_comma (h : outline depth ts = some roles) (us : List Lexeme) :
    splitCommas depth (ts ++ .symbol ',' :: us) = splitCommas depth ts ++ splitCommas 0 us := by
  induction ts generalizing depth roles with
  | nil =>
    cases depth with
    | zero => rfl
    | succ depth => cases h
  | cons t rest ih =>
    obtain ⟨next, seen, more, hnext, hrest, -⟩ := outline_cons.1 h
    -- Either this token ends a part itself, or it goes to the first part of what is behind it.
    by_cases hcomma : depth = 0 ∧ t = .symbol ','
    · obtain ⟨rfl, rfl⟩ := hcomma
      obtain ⟨rfl, -⟩ : 0 = next ∧ [.other] = seen := by simpa [role, enter] using hnext
      exact congrArg ([] :: ·) (ih hrest)
    · rw [List.cons_append, splitCommas_cons_of_not hcomma, splitCommas_cons_of_not hcomma,
        depthBehind_of_enter hnext, ih hrest, modifyHead_append _ (splitCommas_ne_nil _ _)]

/-- Between parentheses commas do not count. -/
theorem splitCommas_succ_append (h : outline depth ts = some roles) (us : List Lexeme) :
    splitCommas (depth + 1) (ts ++ us) = (splitCommas 1 us).modifyHead (ts ++ ·) := by
  induction ts generalizing depth roles with
  | nil =>
    cases depth with
    | zero => exact (congrFun List.modifyHead_id _).symm
    | succ depth => cases h
  | cons t rest ih =>
    obtain ⟨next, seen, more, hnext, hrest, -⟩ := outline_cons.1 h
    have hdeeper : t.role.depthBehind (depth + 1) = next + 1 := by
      revert hnext
      cases depth <;> cases t.role <;> simp +contextual [enter, Role.depthBehind]
    rw [List.cons_append, splitCommas_cons_of_not (by simp), hdeeper, ih hrest, List.modifyHead_modifyHead]
    rfl

theorem splitCommas_parenthesized (h : IsClosed ts) :
    splitCommas 0 (.symbol '(' :: ts ++ [.symbol ')']) = [.symbol '(' :: ts ++ [.symbol ')']] := by
  obtain ⟨roles, hroles⟩ := h
  have hclosing : splitCommas 1 [.symbol ')'] = [[.symbol ')']] := rfl
  rw [List.cons_append, splitCommas_cons_of_not (by decide)]
  change (splitCommas 1 (ts ++ [.symbol ')'])).modifyHead _ = _
  rw [splitCommas_succ_append hroles, hclosing]
  rfl

/-- A token that is neither a parenthesis nor a comma. -/
def IsPlain (t : Lexeme) : Prop := t.role = .other ∧ t ≠ .symbol ','

instance : DecidablePred IsPlain := fun _ => inferInstanceAs (Decidable (_ ∧ _))

/-- Plain tokens belong to the part in front of which they stand. -/
theorem splitCommas_append_of_isPlain (h : ∀ t ∈ ts, t.IsPlain) (us : List Lexeme) :
    splitCommas 0 (ts ++ us) = (splitCommas 0 us).modifyHead (ts ++ ·) := by
  induction ts with
  | nil => exact (congrFun List.modifyHead_id _).symm
  | cons t rest ih =>
    obtain ⟨⟨hrole, hcomma⟩, hrest⟩ := List.forall_mem_cons.1 h
    have hdepth : t.role.depthBehind 0 = 0 := by rw [hrole]; rfl
    rw [List.cons_append, splitCommas_cons_of_not (fun hsplit => hcomma hsplit.2), hdepth, ih hrest,
      List.modifyHead_modifyHead]
    rfl

theorem splitCommas_of_isPlain (h : ∀ t ∈ ts, t.IsPlain) : splitCommas 0 ts = [ts] := by
  have hsplit := splitCommas_append_of_isPlain h []
  rw [List.append_nil] at hsplit
  rw [hsplit]
  exact congrArg (fun x => [x]) (List.append_nil ts)

/-- A text that is one part goes to the first part of what is behind it. -/
theorem splitCommas_append_of_single (h : outline depth ts = some roles) (hsplit : splitCommas depth ts = [ts])
    (us : List Lexeme) : splitCommas depth (ts ++ us) = (splitCommas 0 us).modifyHead (ts ++ ·) := by
  induction ts generalizing depth roles with
  | nil =>
    cases depth with
    | zero => exact (congrFun List.modifyHead_id _).symm
    | succ depth => cases h
  | cons t rest ih =>
    obtain ⟨next, seen, more, hnext, hrest, -⟩ := outline_cons.1 h
    have hcomma : ¬(depth = 0 ∧ t = .symbol ',') := by
      intro hcomma
      rw [splitCommas, if_pos hcomma] at hsplit
      cases hsplit
    rw [splitCommas_cons_of_not hcomma, depthBehind_of_enter hnext] at hsplit
    obtain ⟨part, others, hparts⟩ := List.exists_cons_of_ne_nil (splitCommas_ne_nil next rest)
    rw [hparts] at hsplit
    obtain ⟨rfl, rfl⟩ : part = rest ∧ others = [] := by simpa using hsplit
    rw [List.cons_append, splitCommas_cons_of_not hcomma, depthBehind_of_enter hnext, ih hrest hparts,
      List.modifyHead_modifyHead]
    rfl

/-- Plain tokens behind a text that closes its parentheses belong to its last part. -/
theorem splitCommas_append_eq_singleton (h : outline depth ts = some roles) (hsplit : splitCommas depth ts = [ts])
    (hplain : ∀ t ∈ us, t.IsPlain) : splitCommas depth (ts ++ us) = [ts ++ us] := by
  rw [splitCommas_append_of_single h hsplit, splitCommas_of_isPlain hplain]
  rfl

theorem isClosed_of_isPlain (h : ∀ t ∈ ts, t.IsPlain) : IsClosed ts := by
  obtain ⟨roles, hroles, _⟩ := IsUnjoined.of_role fun t ht => (h t ht).1
  exact ⟨roles, hroles⟩

theorem IsClosed.append (hts : IsClosed ts) (hus : IsClosed us) : IsClosed (ts ++ us) := by
  obtain ⟨roles, hroles⟩ := hts
  obtain ⟨more, hmore⟩ := hus
  exact ⟨roles ++ more, by rw [outline_append hroles, hmore]; rfl⟩

end Lexeme

/-- If each item has at least one part, the parts of all items are one for each item only if no item has several. -/
theorem flatMap_eq_map_iff {α β : Type} {f : α → List β} {g : α → β} {items : List α}
    (hne : ∀ a ∈ items, f a ≠ []) : items.flatMap f = items.map g ↔ ∀ a ∈ items, f a = [g a] := by
  have hlength : ∀ rest : List α, (∀ a ∈ rest, f a ≠ []) → rest.length ≤ (rest.flatMap f).length := by
    intro rest hrest
    induction rest with
    | nil => exact Nat.le_refl _
    | cons a rest ih =>
      have hfirst := List.length_pos_of_ne_nil (hrest a (.head _))
      have hothers := ih fun b hb => hrest b (.tail _ hb)
      rw [List.flatMap_cons, List.length_append, List.length_cons]
      omega
  induction items with
  | nil => simp
  | cons a rest ih =>
    have hrest : ∀ b ∈ rest, f b ≠ [] := fun b hb => hne b (.tail _ hb)
    rw [List.flatMap_cons, List.map_cons, List.forall_mem_cons]
    refine ⟨fun h => ?_, fun ⟨hfirst, hothers⟩ => by rw [hfirst, (ih hrest).2 hothers]; rfl⟩
    obtain ⟨b, more, hfirst⟩ := List.exists_cons_of_ne_nil (hne a (.head _))
    rw [hfirst, List.cons_append] at h
    rw [hfirst]
    obtain ⟨rfl, hothers⟩ := List.cons.inj h
    have hcount := congrArg List.length hothers
    have hmany := hlength rest hrest
    rw [List.length_append, List.length_map] at hcount
    obtain rfl : more = [] := List.length_eq_zero_iff.1 (by omega)
    exact ⟨rfl, (ih hrest).1 hothers⟩

/-! ## Texts -/

namespace Dialect

variable {d : Dialect} {sql first second : Sql} {parts : List Sql}

/-- The tokens of a text. -/
def tokens (d : Dialect) (sql : Sql) : List Lexeme := d.lexemes (d.characters sql)

/-- A text that leaves the lexer at the end of a token and closes the parentheses that it opens. -/
structure IsWhole (d : Dialect) (sql : Sql) : Prop where
  settles : d.Settles (d.characters sql)
  isClosed : IsClosed (d.tokens sql)

/-- A text that a reader takes for one part of a list. -/
structure IsSingle (d : Dialect) (sql : Sql) : Prop where
  ne_nil : d.tokens sql ≠ []
  split : splitCommas 0 (d.tokens sql) = [d.tokens sql]

theorem tokens_gap (h : d.Settles (d.characters first)) {gap : String} (hgap : d.isGap gap.toList = true)
    (second : Sql) : d.tokens (first ++ .word gap :: second) =
      d.tokens first ++ (d.lexemes gap.toList ++ d.tokens second) := by
  rw [tokens, characters_append, characters_cons, renderPiece, lexemes_gap h hgap]
  rfl

/-- Words that leave the lexer between two tokens stand for themselves. -/
theorem tokens_words {words : String} (h : (d.scan .blank words.toList).2 = .blank) (sql : Sql) :
    d.tokens (.word words :: sql) = d.lexemes words.toList ++ d.tokens sql := by
  rw [tokens, characters_cons, renderPiece, d.lexemes_append_of_blank h]
  rfl

/-- A text that begins with a break does not touch the token in front of it. -/
theorem tokens_append_of_isBreak (h : d.Settles (d.characters first))
    (hbreak : (d.characters second).head?.any isBreak = true) :
    d.tokens (first ++ second) = d.tokens first ++ d.tokens second := by
  obtain ⟨c, hhead, hc⟩ := (Option.any_eq_true _ _).1 hbreak
  obtain ⟨rest, hsecond⟩ := List.head?_eq_some_iff.1 hhead
  rw [tokens, characters_append, hsecond, d.lexemes_append_of_isBreak h hc, ← hsecond]
  rfl

theorem settles_append_of_head (h : d.Settles (d.characters first))
    (hbreak : (d.characters second).head?.any isBreak = true) (hsecond : d.Settles (d.characters second)) :
    d.Settles (d.characters (first ++ second)) := by
  obtain ⟨c, hhead, hc⟩ := (Option.any_eq_true _ _).1 hbreak
  obtain ⟨rest, hrest⟩ := List.head?_eq_some_iff.1 hhead
  rw [characters_append, hrest]
  exact d.settles_append_of_isBreak h hc (hrest ▸ hsecond)

theorem isGap_comma (d : Dialect) : d.isGap ", ".toList = true := by cases d <;> rfl

theorem tokens_comma (h : d.IsWhole first) (second : Sql) :
    d.tokens (first ++ .word ", " :: second) = d.tokens first ++ .symbol ',' :: d.tokens second := by
  have hcomma : d.lexemes ", ".toList = [.symbol ','] := by cases d <;> rfl
  rw [tokens_gap h.settles d.isGap_comma, hcomma]
  rfl

namespace IsWhole

theorem nil : d.IsWhole [] := ⟨rfl, [], rfl⟩

theorem comma (hfirst : d.IsWhole first) (hsecond : d.IsWhole second) :
    d.IsWhole (first ++ .word ", " :: second) := by
  constructor
  · rw [characters_append, characters_cons, renderPiece]
    exact settles_gap hfirst.settles d.isGap_comma hsecond.settles
  · have hmark : IsClosed [.symbol ','] := ⟨[.other], rfl⟩
    rw [tokens_comma hfirst]
    exact hfirst.isClosed.append (hmark.append hsecond.isClosed)

end IsWhole

theorem commaList_cons_cons (first second : Sql) (rest : List Sql) :
    Sql.commaList (first :: second :: rest) = first ++ .word ", " :: Sql.commaList (second :: rest) := by
  simp [Sql.commaList, Sql.join, List.intercalate]

theorem commaList_singleton (sql : Sql) : Sql.commaList [sql] = sql := by
  simp [Sql.commaList, Sql.join, List.intercalate]

theorem IsWhole.commaList (h : ∀ sql ∈ parts, d.IsWhole sql) : d.IsWhole (Sql.commaList parts) := by
  induction parts with
  | nil => exact .nil
  | cons first rest ih =>
    obtain ⟨hfirst, hrest⟩ := List.forall_mem_cons.1 h
    cases rest with
    | nil => rwa [commaList_singleton]
    | cons second rest =>
      rw [commaList_cons_cons]
      exact hfirst.comma (ih hrest)

/-- The parts of a list are those of its texts. -/
theorem splitCommas_commaList (h : ∀ sql ∈ parts, d.IsWhole sql) (hne : parts ≠ []) :
    splitCommas 0 (d.tokens (Sql.commaList parts)) = parts.flatMap fun sql => splitCommas 0 (d.tokens sql) := by
  induction parts with
  | nil => exact absurd rfl hne
  | cons first rest ih =>
    obtain ⟨hfirst, hrest⟩ := List.forall_mem_cons.1 h
    cases rest with
    | nil => rw [commaList_singleton, List.flatMap_singleton]
    | cons second rest =>
      obtain ⟨roles, hroles⟩ := hfirst.isClosed
      rw [commaList_cons_cons, tokens_comma hfirst, splitCommas_comma hroles, ih hrest (List.cons_ne_nil _ _)]
      rfl

/-- A list has one part for each text if and only if no text has a comma of its own. -/
theorem splitCommas_commaList_iff (h : ∀ sql ∈ parts, d.IsWhole sql) (hne : parts ≠ []) :
    splitCommas 0 (d.tokens (Sql.commaList parts)) = parts.map d.tokens ↔
      ∀ sql ∈ parts, splitCommas 0 (d.tokens sql) = [d.tokens sql] := by
  rw [splitCommas_commaList h hne]
  exact flatMap_eq_map_iff fun sql _ => splitCommas_ne_nil 0 _

/-- Commas between parentheses and commas in quotes do not count. -/
example : (splitCommas 0 (mysql.tokens [.word "f(a, b), ", .literal "c, d"])).length = 2 := by decide

/-- A reader finds each text of the list as one part of it, and something in it. -/
structure Lists (d : Dialect) (parts : List Sql) : Prop where
  split : splitCommas 0 (d.tokens (Sql.commaList parts)) = parts.map d.tokens
  ne_nil : ∀ sql ∈ parts, d.tokens sql ≠ []

theorem lists_iff (h : ∀ sql ∈ parts, d.IsWhole sql) (hne : parts ≠ []) :
    d.Lists parts ↔ ∀ sql ∈ parts, d.IsSingle sql := by
  have hsplit := splitCommas_commaList_iff h hne
  exact ⟨fun hlists sql hsql => ⟨hlists.ne_nil sql hsql, hsplit.1 hlists.split sql hsql⟩,
    fun hsingle => ⟨hsplit.2 fun sql hsql => (hsingle sql hsql).split, fun sql hsql => (hsingle sql hsql).ne_nil⟩⟩

/-! ## Parentheses and plain texts -/

theorem tokens_parenthesized (h : d.IsWhole sql) :
    d.tokens (Sql.parenthesized sql) = .symbol '(' :: d.tokens sql ++ [.symbol ')'] := by
  have htext : d.characters (Sql.parenthesized sql) = "(".toList ++ (d.characters sql ++ ")".toList) := by
    simp [Sql.parenthesized, renderPiece]
  rw [tokens, htext, lexemes_parenthesized h.settles]
  rfl

theorem IsWhole.parenthesized (h : d.IsWhole sql) : d.IsWhole (Sql.parenthesized sql) := by
  constructor
  · have htext : d.characters (Sql.parenthesized sql) = "(".toList ++ (d.characters sql ++ ")".toList) := by
      simp [Sql.parenthesized, renderPiece]
    rw [htext]
    exact settles_parenthesized h.settles
  · obtain ⟨roles, hroles⟩ := h.isClosed
    rw [tokens_parenthesized h]
    exact ⟨[], outline_group rfl rfl hroles⟩

theorem isSingle_parenthesized (h : d.IsWhole sql) : d.IsSingle (Sql.parenthesized sql) := by
  constructor
  · rw [tokens_parenthesized h]
    exact List.cons_ne_nil _ _
  · rw [tokens_parenthesized h]
    exact splitCommas_parenthesized h.isClosed

/-- A text of plain tokens. -/
structure IsPlainText (d : Dialect) (sql : Sql) : Prop where
  settles : d.Settles (d.characters sql)
  tokens : ∀ t ∈ d.tokens sql, t.IsPlain

namespace IsPlainText

theorem append (hfirst : d.IsPlainText first) (hsecond : d.IsPlainText second)
    (hbreak : (d.characters second).head?.any isBreak = true) : d.IsPlainText (first ++ second) where
  settles := settles_append_of_head hfirst.settles hbreak hsecond.settles
  tokens := by
    rw [tokens_append_of_isBreak hfirst.settles hbreak]
    exact List.forall_mem_append.2 ⟨hfirst.tokens, hsecond.tokens⟩

theorem isWhole (h : d.IsPlainText sql) : d.IsWhole sql := ⟨h.settles, isClosed_of_isPlain h.tokens⟩

theorem isSingle (h : d.IsPlainText sql) (hne : d.tokens sql ≠ []) : d.IsSingle sql :=
  ⟨hne, splitCommas_of_isPlain h.tokens⟩

/-- What is written behind an expression, as a name for it, belongs to it. -/
theorem behind (hsecond : d.IsPlainText second) (hwhole : d.IsWhole first) (hsingle : d.IsSingle first)
    (hbreak : (d.characters second).head?.any isBreak = true) :
    d.IsWhole (first ++ second) ∧ d.IsSingle (first ++ second) := by
  have htokens := tokens_append_of_isBreak hwhole.settles hbreak
  obtain ⟨roles, hroles⟩ := hwhole.isClosed
  refine ⟨⟨settles_append_of_head hwhole.settles hbreak hsecond.settles, ?_⟩, ?_, ?_⟩
  · rw [htokens]
    exact hwhole.isClosed.append hsecond.isWhole.isClosed
  · rw [htokens]
    exact List.append_ne_nil_of_left_ne_nil hsingle.ne_nil _
  · rw [htokens, splitCommas_append_eq_singleton hroles hsingle.split hsecond.tokens]

/-- Words with parentheses behind them, as a call of a function, are one part of a list. -/
theorem call (h : d.IsPlainText first) (hsecond : d.IsWhole second) :
    d.IsWhole (first ++ Sql.parenthesized second) ∧ d.IsSingle (first ++ Sql.parenthesized second) := by
  have hbreak : (d.characters (Sql.parenthesized second)).head?.any isBreak = true := rfl
  have hgroup := isSingle_parenthesized hsecond
  have htokens := tokens_append_of_isBreak h.settles hbreak
  refine ⟨⟨settles_append_of_head h.settles hbreak hsecond.parenthesized.settles, ?_⟩, ?_, ?_⟩
  · rw [htokens]
    exact h.isWhole.isClosed.append hsecond.parenthesized.isClosed
  · rw [htokens]
    exact List.append_ne_nil_of_right_ne_nil _ hgroup.ne_nil
  · rw [htokens, splitCommas_append_of_isPlain h.tokens, hgroup.split]
    rfl

end IsPlainText

end Dialect

end EntitySql
