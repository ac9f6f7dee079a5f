import EntitySql.Proofs.Lexing.Lexeme
/-!
# Complete texts

A text is complete if the lexer, once it stands at the end of a token, stands at the end of a token
again behind the text. Quoted names, literals and plain words are complete whatever they hold, so
every text that is put together from them is, and no quote is ever left open.
-/

namespace EntitySql

open Lexer

/-- Whether the character can neither open quotes nor begin a comment. -/
def Lexer.isPlain (c : Char) : Bool := !(['\'', '"', '`', '-', '/', '#'].contains c)

namespace Dialect

variable (d : Dialect)

/-- A text behind which the lexer stands at the end of a token if it did so in front of it. -/
def Complete (text : List Char) : Prop :=
  ∀ m : Mode, d.isSettled m = true → d.isSettled (d.scan m text).2 = true

theorem Complete.settles {text : List Char} (h : d.Complete text) : d.Settles text := h .blank rfl

theorem Complete.nil : d.Complete [] := fun _ hm => hm

variable {d} in
theorem Complete.append {first second : List Char} (hfirst : d.Complete first)
    (hsecond : d.Complete second) : d.Complete (first ++ second) := by
  intro m hm
  rw [scan_append]
  exact hsecond _ (hfirst m hm)

/-! ## Plain words -/

/-- A character that opens nothing leaves the lexer at the end of a token. -/
theorem isSettled_step_of_isPlain {m : Mode} (hm : d.isSettled m = true) {c : Char}
    (hc : isPlain c = true) : d.isSettled (d.step m c).2 = true := by
  have hne : c ≠ '\'' ∧ c ≠ '"' ∧ c ≠ '`' ∧ c ≠ '-' ∧ c ≠ '/' ∧ c ≠ '#' := by
    simpa [isPlain, not_or] using hc
  obtain ⟨hsingle, hdouble, htick, hdash, hslash, hhash⟩ := hne
  have hmark : ∀ q, c ≠ d.markOf q := by
    intro q
    cases d <;> cases q <;> simpa [markOf, quoteChar, isMySqlLike]
  have hquote : d.quotation? c = none := by
    have hname : c ≠ d.quoteChar := hmark .name
    simp [quotation?, hname, hsingle, hdouble]
  have hstart : d.isSettled (d.start c).2 = true := by
    unfold start
    split
    · rfl
    · simp only [hquote, hhash, decide_false, Bool.false_and]
      repeat' split
      all_goals first | rfl | contradiction
  cases m with
  | blank => exact hstart
  | word read =>
    simp only [step]
    split
    · rfl
    · exact hstart
  | closing q read =>
    rw [step, if_neg (hmark q)]
    exact hstart
  | dash | dashes | slash | lineComment | blockComment | inside | escaped =>
    simp [isSettled] at hm

theorem Complete.of_isPlain {text : List Char} (h : text.all isPlain = true) : d.Complete text := by
  induction text with
  | nil => exact Complete.nil d
  | cons c rest ih =>
    obtain ⟨hc, hrest⟩ := Bool.and_eq_true_iff.1 (List.all_cons.symm.trans h)
    intro m hm
    exact ih hrest _ (d.isSettled_step_of_isPlain hm hc)

/-- A minus in front of a plain word is a sign. -/
theorem Complete.of_minus {c : Char} {rest : List Char} (hc : isPlain c = true)
    (h : rest.all isPlain = true) : d.Complete ('-' :: c :: rest) := by
  have hne : c ≠ '-' := by
    rintro rfl
    exact absurd hc (by decide)
  have hminus : ∀ m : Mode, d.isSettled m = true → (d.step m '-').2 = .dash := by
    intro m hm
    cases m with
    | blank => cases d <;> rfl
    | word read => cases d <;> rfl
    | closing q read => cases d <;> cases q <;> rfl
    | dash | dashes | slash | lineComment | blockComment | inside | escaped =>
      simp [isSettled] at hm
  have hnext : d.isSettled (d.step .dash c).2 = true := by
    rw [step, if_neg hne]
    exact d.isSettled_step_of_isPlain (m := .blank) rfl hc
  intro m hm
  rw [scan, scan, hminus m hm]
  exact Complete.of_isPlain d h _ hnext

/-! ## Quotations -/

theorem doubled_cons_self (c : Char) (rest : List Char) :
    doubled c (c :: rest) = c :: c :: doubled c rest := by
  simp [doubled]

theorem doubled_cons_of_ne {c other : Char} (h : other ≠ c) (rest : List Char) :
    doubled c (other :: rest) = other :: doubled c rest := by
  simp [doubled, h]

/-- Doubled marks are read back as single ones. -/
theorem scan_inside_doubled (q : Quotation) (read text : List Char)
    (h : ∀ c ∈ text, ¬(c = '\\' ∧ d.escapesIn q = true)) :
    d.scan (.inside q read) (doubled (d.markOf q) text) = ([], .inside q (read ++ text)) := by
  induction text generalizing read with
  | nil => simp [doubled]
  | cons c rest ih =>
    have hrest := ih (read ++ [c]) fun x hx => h x (.tail c hx)
    rw [List.append_assoc, List.singleton_append] at hrest
    by_cases hc : c = d.markOf q
    · subst hc
      have hfirst : d.step (.inside q read) (d.markOf q) = ([], .closing q read) := if_pos rfl
      have hsecond : d.step (.closing q read) (d.markOf q) =
          ([], .inside q (read ++ [d.markOf q])) := if_pos rfl
      rw [doubled_cons_self, d.scan_cons_of_step hfirst, d.scan_cons_of_step hsecond, hrest]
    · have hescape : (decide (c = '\\') && d.escapesIn q) = false := by
        simpa using h c (.head rest)
      have hstep : d.step (.inside q read) c = ([], .inside q (read ++ [c])) := by
        simp [step, hc, hescape]
      rw [doubled_cons_of_ne hc, d.scan_cons_of_step hstep, hrest]

/-- Where backslashes escape, doubled backslashes are read back as single ones, too. -/
theorem scan_inside_escaped (hd : d.isMySqlLike = true) (read text : List Char) :
    d.scan (.inside .single read) (doubled '\'' (doubled '\\' text)) =
      ([], .inside .single (read ++ text)) := by
  have hescapes : d.escapesIn .single = true := by simp [escapesIn, hd]
  induction text generalizing read with
  | nil => simp [doubled]
  | cons c rest ih =>
    have hrest := ih (read ++ [c])
    rw [List.append_assoc, List.singleton_append] at hrest
    by_cases hback : c = '\\'
    · subst hback
      have hfirst : d.step (.inside .single read) '\\' = ([], .escaped .single read) := by
        simp [step, markOf, hescapes]
      rw [doubled_cons_self, doubled_cons_of_ne (by decide), doubled_cons_of_ne (by decide),
        d.scan_cons_of_step hfirst, d.scan_cons_of_step rfl]
      exact hrest
    · rw [doubled_cons_of_ne hback]
      by_cases hquote : c = '\''
      · subst hquote
        have hfirst : d.step (.inside .single read) '\'' = ([], .closing .single read) := rfl
        have hsecond : d.step (.closing .single read) '\'' =
            ([], .inside .single (read ++ ['\''])) := rfl
        rw [doubled_cons_self, d.scan_cons_of_step hfirst, d.scan_cons_of_step hsecond]
        exact hrest
      · have hstep : d.step (.inside .single read) c = ([], .inside .single (read ++ [c])) := by
          simp [step, markOf, hback, hquote]
        rw [doubled_cons_of_ne hquote, d.scan_cons_of_step hstep]
        exact hrest

/-- What a mark does at the end of a token: it opens a quotation, unless it is the second of two. -/
theorem step_markOf {q : Quotation} (hq : d.knows q = true) {m : Mode}
    (hm : d.isSettled m = true) :
    d.step m (d.markOf q) = (m.pending, .inside q []) ∨
      ∃ read, m = .closing q read ∧
        d.step m (d.markOf q) = ([], .inside q (read ++ [d.markOf q])) := by
  have hopens : d.quotation? (d.markOf q) = some q := by simpa [knows] using hq
  have hblank : isBlank (d.markOf q) = false := by cases d <;> cases q <;> rfl
  have hword : isWordChar (d.markOf q) = false := by cases d <;> cases q <;> rfl
  have hstart : d.start (d.markOf q) = ([], .inside q []) := by simp [start, hblank, hopens]
  cases m with
  | blank => exact .inl hstart
  | word read => simp [step, hword, restart, hstart]
  | closing other read =>
    by_cases hsame : d.markOf q = d.markOf other
    · have hother : d.quotation? (d.markOf other) = some other := by
        simpa [isSettled, knows] using hm
      have : q = other := by simpa [hsame, hother] using hopens.symm
      subst this
      exact .inr ⟨read, rfl, by simp [step]⟩
    · exact .inl (by simp [step, hsame, restart, hstart])
  | dash | dashes | slash | lineComment | blockComment | inside | escaped =>
    simp [isSettled] at hm

theorem scan_body_markOf {q : Quotation} {body content : List Char}
    (hbody : ∀ read, d.scan (.inside q read) body = ([], .inside q (read ++ content)))
    (read : List Char) :
    d.scan (.inside q read) (body ++ [d.markOf q]) = ([], .closing q (read ++ content)) := by
  have hclose : d.step (.inside q (read ++ content)) (d.markOf q) =
      ([], .closing q (read ++ content)) := if_pos rfl
  rw [scan_append, hbody, d.scan_cons_of_step hclose]
  rfl

/-- Between two marks the lexer reads the content of a quotation. What it makes of the first mark
depends on the mode alone: where the mark is the second of two, the content goes on. -/
theorem scan_quotation {q : Quotation} (hq : d.knows q = true) {m : Mode}
    (hm : d.isSettled m = true) :
    ∃ done read, ∀ body content : List Char,
      (∀ read, d.scan (.inside q read) body = ([], .inside q (read ++ content))) →
      d.scan m (d.markOf q :: body ++ [d.markOf q]) = (done, .closing q (read ++ content)) := by
  rcases d.step_markOf hq hm with hstep | ⟨read, _, hstep⟩
  · refine ⟨m.pending, [], fun body content hbody => ?_⟩
    rw [List.cons_append, scan, hstep, d.scan_body_markOf hbody]
    simp
  · refine ⟨[], read ++ [d.markOf q], fun body content hbody => ?_⟩
    rw [List.cons_append, d.scan_cons_of_step hstep, d.scan_body_markOf hbody]

/-- Behind anything but a quotation of its kind, a quotation is a token of its own. -/
theorem scan_quotation_of_ne {q : Quotation} (hq : d.knows q = true) {m : Mode}
    (hm : d.isSettled m = true) (hne : ∀ read, m ≠ .closing q read) {body content : List Char}
    (hbody : ∀ read, d.scan (.inside q read) body = ([], .inside q (read ++ content))) :
    d.scan m (d.markOf q :: body ++ [d.markOf q]) = (m.pending, .closing q content) := by
  rcases d.step_markOf hq hm with hstep | ⟨read, hm', _⟩
  · rw [List.cons_append, scan, hstep, d.scan_body_markOf hbody]
    simp
  · exact absurd hm' (hne read)

theorem Complete.of_quotation {q : Quotation} (hq : d.knows q = true) {body content : List Char}
    (hbody : ∀ read, d.scan (.inside q read) body = ([], .inside q (read ++ content))) :
    d.Complete (d.markOf q :: body ++ [d.markOf q]) := by
  intro m hm
  obtain ⟨done, read, hscan⟩ := d.scan_quotation hq hm
  rw [hscan body content hbody]
  exact hq

@[simp]
theorem knows_name : d.knows .name = true := by cases d <;> rfl

@[simp]
theorem knows_single : d.knows .single = true := by cases d <;> rfl

/-- The inside of a string literal. -/
def literalBody (text : List Char) : List Char :=
  doubled '\'' (if d.isMySqlLike then doubled '\\' text else text)

theorem quoteText_eq (text : String) :
    d.quoteText text = '\'' :: d.literalBody text.toList ++ ['\''] := by
  cases d <;> rfl

theorem scan_literalBody (read text : List Char) :
    d.scan (.inside .single read) (d.literalBody text) = ([], .inside .single (read ++ text)) := by
  unfold literalBody
  split
  · rename_i hd
    exact d.scan_inside_escaped hd read text
  · rename_i hd
    exact d.scan_inside_doubled .single read text (by simp [escapesIn, hd])

theorem complete_quoteText (text : String) : d.Complete (d.quoteText text) := by
  rw [quoteText_eq]
  exact Complete.of_quotation d d.knows_single fun read => d.scan_literalBody read text.toList

theorem complete_quoteName (name : String) : d.Complete (d.quoteName name) :=
  Complete.of_quotation d d.knows_name fun read =>
    d.scan_inside_doubled .name read name.toList (by simp [escapesIn])

end Dialect

end EntitySql
