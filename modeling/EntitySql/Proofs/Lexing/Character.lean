import EntitySql.Proofs.Lexing.Lexeme
/-!
# The characters of tokens

A token outside quotes consists of characters of the text, so a text without letters has no keyword
in it and a text without parentheses opens none.
-/

namespace EntitySql

open Lexer

/-- Whether a token outside quotes consists of such characters. -/
def Lexeme.All (p : Char → Bool) : Lexeme → Prop
  | .word text => ∀ c ∈ text, p c = true
  | .symbol c => p c = true
  | .name _ | .literal _ | .unclosed => True

/-- Whether the token that is being read consists of such characters. -/
def Lexer.Mode.All (p : Char → Bool) : Mode → Prop
  | .word read => ∀ c ∈ read, p c = true
  | .dash | .dashes => p '-' = true
  | .slash => p '/' = true
  | .blank | .lineComment | .blockComment _ _ | .inside _ _ | .escaped _ _ | .closing _ _ => True

namespace Dialect

variable {d : Dialect}

theorem all_pending {p : Char → Bool} {m : Mode} (hm : m.All p) : ∀ t ∈ m.pending, t.All p := by
  cases m with
  | closing q read => cases q <;> simp [Mode.pending, Quotation.lexeme, Lexeme.All]
  | blank | word | dash | dashes | slash | lineComment | blockComment | inside | escaped =>
    simp_all [Mode.pending, Mode.All, Lexeme.All]

theorem all_start {p : Char → Bool} {c : Char} (hc : p c = true) :
    (∀ t ∈ (d.start c).1, t.All p) ∧ (d.start c).2.All p := by
  unfold start
  repeat' split
  all_goals simp_all [Mode.All, Lexeme.All]

theorem all_step {p : Char → Bool} {m : Mode} (hm : m.All p) {c : Char} (hc : p c = true) :
    (∀ t ∈ (d.step m c).1, t.All p) ∧ (d.step m c).2.All p := by
  have hrestart : (∀ t ∈ (d.restart m c).1, t.All p) ∧ (d.restart m c).2.All p :=
    ⟨fun t ht => (List.mem_append.1 ht).elim (all_pending hm t) ((all_start hc).1 t),
      (all_start hc).2⟩
  cases m with
  | blank => exact all_start hc
  | word read =>
    rw [step]
    split
    · refine ⟨by simp, fun x hx => ?_⟩
      rcases List.mem_append.1 hx with hx | hx
      · exact hm x hx
      · rwa [List.mem_singleton.1 hx]
    · exact hrestart
  | dash =>
    rw [step]
    split
    · refine ⟨by simp, ?_⟩
      split
      · exact hm
      · trivial
    · exact hrestart
  | dashes =>
    rw [step]
    repeat' split
    · exact ⟨by simpa [Lexeme.All, Mode.All] using hm, hm⟩
    · exact ⟨by simp, trivial⟩
    · exact ⟨by simp, trivial⟩
    · exact hrestart
  | slash =>
    rw [step]
    split
    · exact ⟨by simp, trivial⟩
    · exact hrestart
  | lineComment =>
    rw [step]
    split <;> exact ⟨by simp, trivial⟩
  | blockComment depth last =>
    simp only [step]
    repeat' split
    all_goals exact ⟨by simp, trivial⟩
  | inside q read =>
    rw [step]
    repeat' split
    all_goals exact ⟨by simp, trivial⟩
  | escaped q read => exact ⟨by simp [step], trivial⟩
  | closing q read =>
    rw [step]
    split
    · exact ⟨by simp, trivial⟩
    · exact hrestart

/-- The tokens of a text outside quotes consist of its characters. -/
theorem all_scan {p : Char → Bool} {m : Mode} (hm : m.All p) {text : List Char}
    (htext : ∀ c ∈ text, p c = true) :
    (∀ t ∈ (d.scan m text).1, t.All p) ∧ (d.scan m text).2.All p := by
  induction text generalizing m with
  | nil => exact ⟨by simp, hm⟩
  | cons c rest ih =>
    obtain ⟨hdone, hnext⟩ := all_step (d := d) hm (htext c (.head rest))
    obtain ⟨hrest, hlast⟩ := ih hnext fun x hx => htext x (.tail c hx)
    exact ⟨fun t ht => (List.mem_append.1 ht).elim (hdone t) (hrest t), hlast⟩

theorem all_lexemes {p : Char → Bool} {text : List Char} (htext : ∀ c ∈ text, p c = true) :
    ∀ t ∈ d.lexemes text, t.All p := by
  obtain ⟨hdone, hlast⟩ := all_scan (d := d) (m := .blank) trivial htext
  exact fun t ht => (List.mem_append.1 ht).elim (hdone t) (all_pending hlast t)

end Dialect

end EntitySql
