import EntitySql.Proofs.Lexing.Quoting
/-!
# Literals in standard spelling

A literal in standard spelling doubles the quotes of its text and nothing else. It is read back as the text
followed by what stands behind the literal, unless the dialect takes a backslash for more than itself, which the
MySQL grammar does everywhere but before a percent sign and an underscore
(`Dialect.readLiteral?_standardLiteral_iff`).

That nothing else is read back follows by counting. A character of the text is paid for by two quotes, by one
other character, or by a backslash and what it escapes. A literal that is read to its end has paid for all it
holds, and a backslash that escapes is paid for nothing.
-/

namespace EntitySql

open Lexer

/-- Whether every backslash stands before a percent sign or an underscore, where no dialect reads it as an
escape. -/
def Lexer.keepsBackslashes : List Char → Bool
  | [] => true
  | c :: rest =>
    (c != '\\' || rest.head?.any fun next => next = '%' || next = '_') && keepsBackslashes rest

theorem Lexer.keepsBackslashes_cons_iff {c : Char} {text : List Char} :
    keepsBackslashes (c :: text) = true ↔
      (c = '\\' → ∃ next rest, text = next :: rest ∧ (next = '%' ∨ next = '_')) ∧
        keepsBackslashes text = true := by
  rw [keepsBackslashes, Bool.and_eq_true, Bool.or_eq_true]
  refine and_congr_left fun _ => ?_
  by_cases hc : c = '\\'
  · cases text <;> simp [hc]
  · simp [hc]

namespace Dialect

/-- Reads on inside quotes up to the quote that closes them: what the quotes hold, and what follows. -/
def takeQuoted? (d : Dialect) (m : Mode) : List Char → Option (List Char × List Char)
  | [] =>
    match m with
    | .closing _ read => some (read, [])
    | _ => none
  | c :: rest =>
    match m with
    | .closing q read =>
      if c = d.markOf q then d.takeQuoted? (.inside q (read ++ [c])) rest else some (read, c :: rest)
    | .inside _ _ | .escaped _ _ => d.takeQuoted? (d.step m c).2 rest
    | _ => none

/-- Reads a string literal from its opening quote: what it holds, and what follows. -/
def readLiteral? (d : Dialect) : List Char → Option (List Char × List Char)
  | [] => none
  | c :: rest =>
    match d.quotation? c with
    | some .single => d.takeQuoted? (.inside .single []) rest
    | some .double => d.takeQuoted? (.inside .double []) rest
    | _ => none

variable (d : Dialect)

/-! ## Single characters -/

theorem takeQuoted?_close {q : Quotation} (read : List Char) {after : List Char}
    (hafter : after.head? ≠ some (d.markOf q)) :
    d.takeQuoted? (.inside q read) (d.markOf q :: after) = some (read, after) := by
  have hstep : (d.step (.inside q read) (d.markOf q)).2 = .closing q read := by rw [step, if_pos rfl]
  rw [takeQuoted?, hstep]
  cases after with
  | nil => rfl
  | cons c rest =>
    have hc : c ≠ d.markOf q := fun h => hafter (congrArg some h)
    rw [takeQuoted?, if_neg hc]

theorem takeQuoted?_quote (read rest : List Char) :
    d.takeQuoted? (.inside .single read) ('\'' :: '\'' :: rest) =
      d.takeQuoted? (.inside .single (read ++ ['\''])) rest := rfl

/-- A character that is no quote and escapes nothing stands for itself. -/
theorem takeQuoted?_self {c : Char} (hquote : c ≠ '\'')
    (hescape : ¬(c = '\\' ∧ d.isMySqlLike = true)) (read rest : List Char) :
    d.takeQuoted? (.inside .single read) (c :: rest) =
      d.takeQuoted? (.inside .single (read ++ [c])) rest := by
  have hstep : (d.step (.inside .single read) c).2 = .inside .single (read ++ [c]) := by
    have hplain : (decide (c = '\\') && d.escapesIn .single) = false := by
      simpa [escapesIn] using hescape
    rw [step, if_neg (show c ≠ d.markOf .single from hquote), hplain, if_neg Bool.false_ne_true]
  rw [takeQuoted?, hstep]

theorem takeQuoted?_escape (hd : d.isMySqlLike = true) (c : Char) (read rest : List Char) :
    d.takeQuoted? (.inside .single read) ('\\' :: c :: rest) =
      d.takeQuoted? (.inside .single (read ++ unescape c)) rest := by
  have hstep : (d.step (.inside .single read) '\\').2 = .escaped .single read := by
    simp [step, markOf, escapesIn, hd]
  rw [takeQuoted?, hstep]
  rfl

/-- In front of a percent sign or an underscore a backslash stands for itself. -/
theorem takeQuoted?_kept {next : Char} (hnext : next = '%' ∨ next = '_') (read rest : List Char) :
    d.takeQuoted? (.inside .single read) ('\\' :: next :: rest) =
      d.takeQuoted? (.inside .single (read ++ ['\\'])) (next :: rest) := by
  have hself : next ≠ '\'' ∧ next ≠ '\\' := by rcases hnext with rfl | rfl <;> decide
  have hback : unescape next = ['\\', next] := by rcases hnext with rfl | rfl <;> rfl
  rw [d.takeQuoted?_self hself.1 (by simp [hself.2]), List.append_assoc, List.singleton_append]
  by_cases hd : d.isMySqlLike = true
  · rw [d.takeQuoted?_escape hd, hback]
  · rw [d.takeQuoted?_self (by decide) (by simp [hd]), d.takeQuoted?_self hself.1 (by simp [hself.2]),
      List.append_assoc, List.singleton_append]

/-! ## Reading what is kept -/

/-- One character of a text in standard spelling is read as itself, unless it escapes something. -/
theorem takeQuoted?_doubled_cons {c : Char} {text : List Char} (read tail : List Char)
    (h : d.isMySqlLike = true → c = '\\' →
      ∃ next rest, text = next :: rest ∧ (next = '%' ∨ next = '_')) :
    d.takeQuoted? (.inside .single read) (doubled '\'' (c :: text) ++ tail) =
      d.takeQuoted? (.inside .single (read ++ [c])) (doubled '\'' text ++ tail) := by
  by_cases hquote : c = '\''
  · subst hquote
    rw [doubled_cons_self]
    exact d.takeQuoted?_quote read _
  · rw [doubled_cons_of_ne hquote]
    by_cases hescape : c = '\\' ∧ d.isMySqlLike = true
    · obtain ⟨rfl, hd⟩ := hescape
      obtain ⟨next, rest, rfl, hnext⟩ := h hd rfl
      have hne : next ≠ '\'' := by rcases hnext with rfl | rfl <;> decide
      rw [doubled_cons_of_ne hne]
      exact d.takeQuoted?_kept hnext read _
    · exact d.takeQuoted?_self hquote hescape read _

theorem takeQuoted?_doubled {text : List Char} (h : d.isMySqlLike = true → keepsBackslashes text = true)
    (read : List Char) {after : List Char} (hafter : after.head? ≠ some '\'') :
    d.takeQuoted? (.inside .single read) (doubled '\'' text ++ '\'' :: after) = some (read ++ text, after) := by
  induction text generalizing read with
  | nil =>
    rw [List.append_nil]
    exact d.takeQuoted?_close read hafter
  | cons c rest ih =>
    rw [d.takeQuoted?_doubled_cons, ih, List.append_assoc, List.singleton_append]
    · exact fun hd => (keepsBackslashes_cons_iff.1 (h hd)).2
    · exact fun hd => (keepsBackslashes_cons_iff.1 (h hd)).1

/-! ## Paying for what is read -/

/-- What characters pay for in a literal: a quote for half a character, any other one for a character. -/
def weight : List Char → Nat
  | [] => 0
  | c :: rest => (if c = '\'' then 1 else 2) + weight rest

theorem weight_cons (c : Char) (cs : List Char) :
    weight (c :: cs) = (if c = '\'' then 1 else 2) + weight cs := rfl

theorem weight_doubled (text rest : List Char) :
    weight (doubled '\'' text ++ rest) = 2 * text.length + weight rest := by
  induction text with
  | nil => simp [doubled]
  | cons c text ih =>
    by_cases hc : c = '\''
    · subst hc
      rw [doubled_cons_self, List.cons_append, List.cons_append, weight_cons, weight_cons, ih, List.length_cons]
      simp only [if_true]
      omega
    · rw [doubled_cons_of_ne hc, List.cons_append, weight_cons, ih, List.length_cons, if_neg hc]
      omega

/-- What is owed before the next character is read. -/
def debt : Mode → Nat
  | .inside _ read => 2 * read.length
  | .escaped _ read => 2 * read.length + 2
  | .closing _ read => 2 * read.length + 1
  | _ => 0

/-- A backslash pays for what it escapes. -/
theorem length_unescape_le (c : Char) : 2 * (unescape c).length ≤ 2 + if c = '\'' then 1 else 2 := by
  unfold unescape
  split <;> simp

theorem length_unescape_of_ne {c : Char} (h : ¬(c = '%' ∨ c = '_')) : (unescape c).length = 1 := by
  unfold unescape
  split <;> simp_all

theorem debt_step_inside (c : Char) (read : List Char) :
    debt (d.step (.inside .single read) c).2 ≤
        debt (.inside .single read) + (if c = '\'' then 1 else 2) ∧
      ∃ read', (d.step (.inside .single read) c).2 = .inside .single read' ∨
        (d.step (.inside .single read) c).2 = .escaped .single read' ∨
        (d.step (.inside .single read) c).2 = .closing .single read' := by
  by_cases hquote : c = d.markOf .single
  · rw [step, if_pos hquote, if_pos (show c = '\'' from hquote)]
    exact ⟨Nat.le_refl _, read, .inr (.inr rfl)⟩
  · rw [step, if_neg hquote, if_neg (show c ≠ '\'' from hquote)]
    split
    · exact ⟨Nat.le_refl _, read, .inr (.inl rfl)⟩
    · refine ⟨?_, read ++ [c], .inl rfl⟩
      simp only [debt, List.length_append, List.length_singleton]
      omega

/-- All that a literal holds is paid for. -/
theorem length_le_of_takeQuoted? {m : Mode} {cs content rest : List Char}
    (hm : ∃ read, m = .inside .single read ∨ m = .escaped .single read ∨ m = .closing .single read)
    (h : d.takeQuoted? m cs = some (content, rest)) :
    2 * content.length + 1 + weight rest ≤ debt m + weight cs := by
  induction cs generalizing m with
  | nil =>
    obtain ⟨read, rfl | rfl | rfl⟩ := hm <;> cases h
    exact Nat.le_refl _
  | cons c cs ih =>
    rw [weight_cons]
    obtain ⟨read, rfl | rfl | rfl⟩ := hm
    · obtain ⟨hdebt, hmode⟩ := d.debt_step_inside c read
      have := ih hmode h
      omega
    · have := ih ⟨_, .inl rfl⟩ h
      have hpaid := length_unescape_le c
      simp only [debt, List.length_append] at this ⊢
      omega
    · by_cases hc : c = d.markOf .single
      · rw [takeQuoted?, if_pos hc] at h
        have := ih ⟨_, .inl rfl⟩ h
        rw [if_pos (show c = '\'' from hc)]
        simp only [debt, List.length_append, List.length_singleton] at this ⊢
        omega
      · rw [takeQuoted?, if_neg hc] at h
        cases h
        rw [weight_cons]
        exact Nat.le_refl _

/-- A backslash that escapes something pays for itself and for what it escapes, and only one of the two is
held. -/
theorem length_lt_of_takeQuoted?_doubled (hd : d.isMySqlLike = true) {text : List Char}
    (htext : ¬keepsBackslashes text = true) {read content after : List Char}
    (h : d.takeQuoted? (.inside .single read) (doubled '\'' text ++ '\'' :: after) = some (content, after)) :
    content.length < read.length + text.length := by
  -- What is read behind the backslash and one other character.
  have hescaped : ∀ {read rest : List Char} {c : Char}, ¬(c = '%' ∨ c = '_') →
      d.takeQuoted? (.inside .single read) ('\\' :: c :: rest) = some (content, after) →
        2 * content.length + 1 + weight after ≤ 2 * read.length + 2 + weight rest := by
    intro read rest c hc h
    rw [d.takeQuoted?_escape hd] at h
    have hpaid := d.length_le_of_takeQuoted? ⟨_, .inl rfl⟩ h
    rw [debt, List.length_append, length_unescape_of_ne hc] at hpaid
    omega
  induction text generalizing read with
  | nil => exact absurd rfl htext
  | cons c text ih =>
    rw [List.length_cons]
    by_cases hkept : c = '\\' → ∃ next rest, text = next :: rest ∧ (next = '%' ∨ next = '_')
    · rw [d.takeQuoted?_doubled_cons read _ fun _ => hkept] at h
      have hrest := ih (fun hrest => htext (keepsBackslashes_cons_iff.2 ⟨hkept, hrest⟩)) h
      rw [List.length_append, List.length_singleton] at hrest
      omega
    · obtain ⟨rfl, hloose⟩ := Classical.not_imp.1 hkept
      rw [doubled_cons_of_ne (by decide)] at h
      cases text with
      | nil =>
        have hpaid := hescaped (by decide) h
        omega
      | cons next rest =>
        have hnext : ¬(next = '%' ∨ next = '_') := fun hnext => hloose ⟨next, rest, rfl, hnext⟩
        rw [List.length_cons]
        by_cases hquote : next = '\''
        · subst hquote
          rw [doubled_cons_self] at h
          have hpaid : 2 * content.length + 1 + weight after ≤
              2 * read.length + 2 + weight ('\'' :: (doubled '\'' rest ++ '\'' :: after)) := hescaped hnext h
          rw [weight_cons, weight_doubled, weight_cons, if_pos rfl] at hpaid
          omega
        · rw [doubled_cons_of_ne hquote] at h
          have hpaid : 2 * content.length + 1 + weight after ≤
              2 * read.length + 2 + weight (doubled '\'' rest ++ '\'' :: after) := hescaped hnext h
          rw [weight_doubled, weight_cons, if_pos rfl] at hpaid
          omega

/-- A literal in standard spelling is read back as its text, with the rest behind it, if and only if no
backslash of the text escapes anything. -/
theorem readLiteral?_standardLiteral_iff (text : String) {after : List Char}
    (hafter : after.head? ≠ some '\'') :
    d.readLiteral? (standardLiteral text ++ after) = some (text.toList, after) ↔
      (d.isMySqlLike = true → keepsBackslashes text.toList = true) := by
  have hopen : d.readLiteral? (standardLiteral text ++ after) =
      d.takeQuoted? (.inside .single []) (doubled '\'' text.toList ++ '\'' :: after) := by
    rw [standardLiteral, List.append_assoc]
    cases d <;> rfl
  rw [hopen]
  constructor
  · refine fun h hd => Classical.byContradiction fun htext => ?_
    have hless := d.length_lt_of_takeQuoted?_doubled hd htext h
    rw [List.length_nil] at hless
    omega
  · exact fun h => d.takeQuoted?_doubled h [] hafter

end Dialect

end EntitySql
