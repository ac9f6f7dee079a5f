import EntitySql.Proofs.Reading.Formula
/-!
# How a condition is read

The grammar of conditions over the tokens of a text: `NOT` binds tighter than `AND`, `AND` tighter
than `OR`, and parentheses group. What stands between these is a fragment of its own. `Reads.unique`
says that a text has at most one reading.

The *outline* of a text lists what stands outside all parentheses. The grammar is decided by it: a
conjunction has no `OR` in its outline and an operand neither `AND` nor `OR`.
-/

namespace EntitySql

/-- What a token does in a condition. -/
inductive Lexeme.Role
  | opening
  | closing
  | conjunction
  | disjunction
  | negation
  /-- Nothing but to be part of a fragment. -/
  | other
deriving DecidableEq, Repr

namespace Lexeme

/-- The role of a token. Keywords count in any case of letters. -/
def role : Lexeme → Role
  | .symbol c => if c = '(' then .opening else if c = ')' then .closing else .other
  | .word text =>
    match text.map Char.toUpper with
    | ['A', 'N', 'D'] => .conjunction
    | ['O', 'R'] => .disjunction
    | ['N', 'O', 'T'] => .negation
    | _ => .other
  | .name _ | .literal _ | .unclosed => .other

/-- Reads a role inside `depth` open parentheses: how many are open behind it, and what it adds to
the outline. A parenthesis that is not open cannot be closed. -/
def enter : Nat → Role → Option (Nat × List Role)
  | depth, .opening => some (depth + 1, [])
  | 0, .closing => none
  | depth + 1, .closing => some (depth, [])
  | 0, role => some (0, [role])
  | depth + 1, _ => some (depth + 1, [])

/-- The roles outside all parentheses of a text inside `depth` open ones that it closes. There is
none where a parenthesis has no counterpart. -/
def outline : Nat → List Lexeme → Option (List Role)
  | 0, [] => some []
  | _ + 1, [] => none
  | depth, t :: rest => do
    let (next, seen) ← enter depth t.role
    let roles ← outline next rest
    return seen ++ roles

/-- Whether the role joins two conditions. -/
def Role.isConnective : Role → Bool
  | .conjunction | .disjunction => true
  | .opening | .closing | .negation | .other => false

/-- A text without connectives outside parentheses. -/
def IsUnjoined (ts : List Lexeme) : Prop :=
  ∃ roles, outline 0 ts = some roles ∧ ∀ role ∈ roles, role.isConnective = false

/-- A text between two parentheses that belong together. -/
def IsEnclosed (ts : List Lexeme) : Prop :=
  ∃ opening body closing roles, ts = opening :: body ++ [closing] ∧ opening.role = .opening ∧
    closing.role = .closing ∧ outline 0 body = some roles

/-- A text that is read as a fragment: it is closed, does not open with `NOT` and does not stand in
parentheses. -/
structure IsFragment (ts : List Lexeme) : Prop where
  isUnjoined : IsUnjoined ts
  head : ∃ t rest, ts = t :: rest ∧ t.role ≠ .negation
  notEnclosed : ¬IsEnclosed ts

end Lexeme

open Lexeme

/-- How tightly the parts of a condition are bound together. -/
inductive Level
  /-- A fragment, a denial, or anything in parentheses. -/
  | operand
  /-- Operands with `AND` between them. -/
  | conjunction
  /-- Conjunctions with `OR` between them. -/
  | expression
deriving DecidableEq, Repr

/-- A text is read as a formula. -/
inductive Reads : Level → List Lexeme → Formula → Prop
  | atom {ts : List Lexeme} (h : IsFragment ts) : Reads .operand ts (.atom ts)
  | group {opening closing : Lexeme} {ts : List Lexeme} {f : Formula}
      (hopening : opening.role = .opening) (hclosing : closing.role = .closing)
      (h : Reads .expression ts f) : Reads .operand (opening :: ts ++ [closing]) f
  | negation {denial : Lexeme} {ts : List Lexeme} {f : Formula} (hdenial : denial.role = .negation)
      (h : Reads .operand ts f) : Reads .operand (denial :: ts) (.not f)
  | operand {ts : List Lexeme} {f : Formula} (h : Reads .operand ts f) : Reads .conjunction ts f
  | conjunction {ts us : List Lexeme} {both : Lexeme} {f g : Formula}
      (hboth : both.role = .conjunction) (hleft : Reads .conjunction ts f)
      (hright : Reads .operand us g) : Reads .conjunction (ts ++ both :: us) (.and f g)
  | conjunct {ts : List Lexeme} {f : Formula} (h : Reads .conjunction ts f) : Reads .expression ts f
  | disjunction {ts us : List Lexeme} {either : Lexeme} {f g : Formula}
      (heither : either.role = .disjunction) (hleft : Reads .expression ts f)
      (hright : Reads .conjunction us g) : Reads .expression (ts ++ either :: us) (.or f g)

namespace Lexeme

/-! ## Outlines -/

variable {ts us : List Lexeme} {roles : List Role}

theorem outline_cons {depth : Nat} {t : Lexeme} :
    outline depth (t :: ts) = some roles ↔
      ∃ next seen rest, enter depth t.role = some (next, seen) ∧ outline next ts = some rest ∧
        roles = seen ++ rest := by
  simp only [outline, Option.bind_eq_bind, Option.bind_eq_some_iff, Prod.exists, Option.pure_def,
    Option.some.injEq]
  constructor
  · rintro ⟨next, seen, hnext, rest, hrest, rfl⟩
    exact ⟨next, seen, rest, hnext, hrest, rfl⟩
  · rintro ⟨next, seen, rest, hnext, hrest, rfl⟩
    exact ⟨next, seen, hnext, rest, hrest, rfl⟩

/-- Behind a text that closes its parentheses the outline goes on with that of the rest. -/
theorem outline_append {depth : Nat} (h : outline depth ts = some roles) (us : List Lexeme) :
    outline depth (ts ++ us) = (outline 0 us).map (roles ++ ·) := by
  induction ts generalizing depth roles with
  | nil =>
    cases depth with
    | zero =>
      cases h
      simp
    | succ depth => cases h
  | cons t rest ih =>
    obtain ⟨next, seen, roles, hnext, hrest, rfl⟩ := outline_cons.1 h
    rw [List.cons_append, outline, hnext]
    cases houtline : outline 0 us with
    | none => simp [ih hrest, houtline]
    | some more => simp [ih hrest, houtline]

/-- One more parenthesis is open around a text that closes its own ones. -/
theorem outline_succ_append {depth : Nat} (h : outline depth ts = some roles) :
    outline (depth + 1) (ts ++ us) = outline 1 us := by
  induction ts generalizing depth roles with
  | nil =>
    cases depth with
    | zero => rfl
    | succ depth => cases h
  | cons t rest ih =>
    obtain ⟨next, seen, roles, hnext, hrest, rfl⟩ := outline_cons.1 h
    have hdeeper : enter (depth + 1) t.role = some (next + 1, []) := by
      revert hnext
      cases depth <;> cases t.role <;> simp +contextual [enter]
    rw [List.cons_append, outline, hdeeper]
    simp [ih hrest]

/-- Parentheses hide what stands between them. -/
theorem outline_group {opening closing : Lexeme} (hopening : opening.role = .opening)
    (hclosing : closing.role = .closing) (h : outline 0 ts = some roles) :
    outline 0 (opening :: ts ++ [closing]) = some [] := by
  rw [List.cons_append, outline_cons]
  refine ⟨1, [], [], by rw [hopening]; rfl, ?_, rfl⟩
  rw [outline_succ_append h, outline_cons]
  exact ⟨0, [], [], by rw [hclosing]; rfl, rfl, rfl⟩

/-- A token outside parentheses that is no parenthesis. -/
theorem outline_cons_of_role {t : Lexeme} {role : Role} (ht : t.role = role)
    (hopening : role ≠ .opening) (hclosing : role ≠ .closing) (h : outline 0 ts = some roles) :
    outline 0 (t :: ts) = some (role :: roles) := by
  have henter : enter 0 t.role = some (0, [role]) := by
    rw [ht]
    cases role <;> first | rfl | contradiction
  exact outline_cons.2 ⟨0, [role], roles, henter, h, rfl⟩

theorem outline_of_cons {t : Lexeme} {role : Role} (ht : t.role = role)
    (hopening : role ≠ .opening) (hclosing : role ≠ .closing)
    (h : outline 0 (t :: ts) = some roles) :
    ∃ rest, outline 0 ts = some rest ∧ roles = role :: rest := by
  obtain ⟨next, seen, rest, hnext, hrest, rfl⟩ := outline_cons.1 h
  have henter : enter 0 t.role = some (0, [role]) := by
    rw [ht]
    cases role <;> first | rfl | contradiction
  obtain ⟨rfl, rfl⟩ : 0 = next ∧ [role] = seen := by simpa [henter] using hnext
  exact ⟨rest, hrest, rfl⟩

theorem Role.ne_of_isConnective {role : Role} (h : role.isConnective = true) :
    role ≠ .opening ∧ role ≠ .closing := by
  cases role <;> simp_all [Role.isConnective]

/-- A connective between two texts stands in their common outline. -/
theorem outline_join {t : Lexeme} {role : Role} (ht : t.role = role)
    (hrole : role.isConnective = true) {more : List Role} (hts : outline 0 ts = some roles)
    (hus : outline 0 us = some more) :
    outline 0 (ts ++ t :: us) = some (roles ++ role :: more) := by
  obtain ⟨hopening, hclosing⟩ := Role.ne_of_isConnective hrole
  rw [outline_append hts, outline_cons_of_role ht hopening hclosing hus]
  rfl

/-! ## Closed texts -/

namespace IsUnjoined

theorem append (hts : IsUnjoined ts) (hus : IsUnjoined us) : IsUnjoined (ts ++ us) := by
  obtain ⟨roles, hroles, hfree⟩ := hts
  obtain ⟨more, hmore, hfree'⟩ := hus
  refine ⟨roles ++ more, by rw [outline_append hroles, hmore]; rfl, fun role hrole => ?_⟩
  exact (List.mem_append.1 hrole).elim (hfree role) (hfree' role)

theorem group {opening closing : Lexeme} (hopening : opening.role = .opening)
    (hclosing : closing.role = .closing) (h : outline 0 ts = some roles) :
    IsUnjoined (opening :: ts ++ [closing]) :=
  ⟨[], outline_group hopening hclosing h, by simp⟩

/-- Tokens that are part of fragments. -/
theorem of_role (h : ∀ t ∈ ts, t.role = .other) : IsUnjoined ts := by
  induction ts with
  | nil => exact ⟨[], rfl, by simp⟩
  | cons t rest ih =>
    obtain ⟨roles, hroles, hfree⟩ := ih fun x hx => h x (.tail t hx)
    refine ⟨.other :: roles, outline_cons_of_role (h t (.head rest)) (by decide) (by decide) hroles,
      fun role hrole => ?_⟩
    rcases List.mem_cons.1 hrole with rfl | hrole
    · rfl
    · exact hfree role hrole

end IsUnjoined

end Lexeme

/-! ## Unique reading -/

/-- Whether the role may stand outside parentheses at the level. -/
def Level.admits : Level → Role → Bool
  | .operand, role => !role.isConnective
  | .conjunction, role => role != .disjunction
  | .expression, _ => true

theorem Level.admits_conjunction {role : Role} (h : Level.operand.admits role = true) :
    Level.conjunction.admits role = true := by
  cases role <;> simp_all [Level.admits, Role.isConnective]

namespace Reads

/-- The outline of a text shows how tightly it can be bound. -/
theorem exists_outline {level : Level} {ts : List Lexeme} {f : Formula} (h : Reads level ts f) :
    ∃ roles, outline 0 ts = some roles ∧ ∀ role ∈ roles, level.admits role = true := by
  induction h with
  | atom h =>
    obtain ⟨roles, hroles, hfree⟩ := h.isUnjoined
    exact ⟨roles, hroles, fun role hrole => by simp [Level.admits, hfree role hrole]⟩
  | group hopening hclosing _ ih =>
    obtain ⟨roles, hroles, _⟩ := ih
    exact ⟨[], outline_group hopening hclosing hroles, by simp⟩
  | negation hdenial _ ih =>
    obtain ⟨roles, hroles, hadmits⟩ := ih
    refine ⟨_, outline_cons_of_role hdenial (by decide) (by decide) hroles, ?_⟩
    simpa [Level.admits, Role.isConnective] using hadmits
  | operand _ ih =>
    obtain ⟨roles, hroles, hadmits⟩ := ih
    exact ⟨roles, hroles, fun role hrole => Level.admits_conjunction (hadmits role hrole)⟩
  | conjunction hboth _ _ ihleft ihright =>
    obtain ⟨left, hleft, hadmits⟩ := ihleft
    obtain ⟨right, hright, hadmits'⟩ := ihright
    refine ⟨_, outline_join hboth rfl hleft hright, fun role hrole => ?_⟩
    rcases List.mem_append.1 hrole with hrole | hrole
    · exact hadmits role hrole
    · rcases List.mem_cons.1 hrole with rfl | hrole
      · rfl
      · exact Level.admits_conjunction (hadmits' role hrole)
  | conjunct _ ih =>
    obtain ⟨roles, hroles, _⟩ := ih
    exact ⟨roles, hroles, fun _ _ => rfl⟩
  | disjunction heither _ _ ihleft ihright =>
    obtain ⟨left, hleft, _⟩ := ihleft
    obtain ⟨right, hright, _⟩ := ihright
    exact ⟨_, outline_join heither rfl hleft hright, fun _ _ => rfl⟩

end Reads

/-- A text that closes its parentheses and goes on with a connective cannot end inside a text whose
outline does not have the connective. -/
theorem not_mem_of_append {role : Role} (hrole : role.isConnective = true)
    {ts middle us : List Lexeme} {t t' : Lexeme} (ht : t.role = role) (ht' : t'.role = role)
    {a b c : List Role} (hts : outline 0 ts = some a)
    (hmore : outline 0 (ts ++ t :: middle) = some b)
    (hus : outline 0 (middle ++ t' :: us) = some c) : role ∈ c := by
  obtain ⟨hopening, hclosing⟩ := Role.ne_of_isConnective hrole
  rw [outline_append hts, Option.map_eq_some_iff] at hmore
  obtain ⟨tail, htail, _⟩ := hmore
  obtain ⟨inner, hinner, _⟩ := outline_of_cons ht hopening hclosing htail
  rw [outline_append hinner, Option.map_eq_some_iff] at hus
  obtain ⟨rest, hrest, rfl⟩ := hus
  obtain ⟨last, _, rfl⟩ := outline_of_cons ht' hopening hclosing hrest
  simp

/-- A connective that does not stand in the outline of what follows it divides a text in one way. -/
theorem eq_of_append_eq {role : Role} (hrole : role.isConnective = true)
    {ts us ts' us' : List Lexeme} {t t' : Lexeme} (ht : t.role = role) (ht' : t'.role = role)
    {a b a' b' : List Role}
    (hts : outline 0 ts = some a) (hts' : outline 0 ts' = some a') (hus : outline 0 us = some b)
    (hus' : outline 0 us' = some b') (hb : role ∉ b) (hb' : role ∉ b')
    (h : ts ++ t :: us = ts' ++ t' :: us') : ts = ts' ∧ us = us' := by
  rcases List.append_eq_append_iff.1 h with ⟨middle, hleft, hright⟩ | ⟨middle, hleft, hright⟩
  · cases middle with
    | nil => simp_all
    | cons x middle =>
      obtain ⟨rfl, rfl⟩ : t = x ∧ us = middle ++ t' :: us' := by simpa using hright
      exact absurd (not_mem_of_append hrole ht ht' hts (hleft ▸ hts') hus) hb
  · cases middle with
    | nil => simp_all
    | cons x middle =>
      obtain ⟨rfl, rfl⟩ : t' = x ∧ us' = middle ++ t :: us := by simpa using hright
      exact absurd (not_mem_of_append hrole ht' ht hts' (hleft ▸ hts) hus') hb'

namespace Reads

/-- A connective that a level does not admit cannot divide its texts. -/
theorem not_append {level : Level} {ts us : List Lexeme} {t : Lexeme} {f : Formula}
    (h : Reads level (ts ++ t :: us) f) (hrole : t.role.isConnective = true)
    (hadmits : level.admits t.role = false) {a b : List Role} (hts : outline 0 ts = some a)
    (hus : outline 0 us = some b) : False := by
  obtain ⟨roles, hroles, hlevel⟩ := h.exists_outline
  rw [outline_join rfl hrole hts hus] at hroles
  cases hroles
  have hadmitted := hlevel t.role (by simp)
  rw [hadmits] at hadmitted
  cases hadmitted

/-- Two texts that are read cannot be joined at a level that does not admit the connective between them. -/
theorem not_join {level first behind : Level} {role : Role} {ts us : List Lexeme} {t : Lexeme}
    {f g g' : Formula} (h : Reads level (ts ++ t :: us) f) (ht : t.role = role)
    (hrole : role.isConnective = true) (hadmits : level.admits role = false) (hts : Reads first ts g)
    (hus : Reads behind us g') : False := by
  subst ht
  obtain ⟨_, hts, _⟩ := hts.exists_outline
  obtain ⟨_, hus, _⟩ := hus.exists_outline
  exact h.not_append hrole hadmits hts hus

/-- Two divisions of a text by a connective that the part behind it does not admit are one. -/
theorem parts_eq {first first' behind : Level} {role : Role} (hrole : role.isConnective = true)
    (hadmits : behind.admits role = false) {ts us ts' us' : List Lexeme} {t t' : Lexeme}
    {f g f' g' : Formula} (ht : t.role = role) (ht' : t'.role = role) (hts : Reads first ts f)
    (hus : Reads behind us g) (hts' : Reads first' ts' f') (hus' : Reads behind us' g')
    (h : ts ++ t :: us = ts' ++ t' :: us') : ts = ts' ∧ us = us' := by
  obtain ⟨_, houtline, _⟩ := hts.exists_outline
  obtain ⟨_, houtline', _⟩ := hts'.exists_outline
  obtain ⟨roles, hroles, hlevel⟩ := hus.exists_outline
  obtain ⟨roles', hroles', hlevel'⟩ := hus'.exists_outline
  have hnot : role ∉ roles := fun hmem => by simp [hlevel role hmem] at hadmits
  have hnot' : role ∉ roles' := fun hmem => by simp [hlevel' role hmem] at hadmits
  exact eq_of_append_eq hrole ht ht' houtline houtline' hroles hroles' hnot hnot' h

/-- Nothing is read where there is no token. -/
theorem ne_nil {level : Level} {ts : List Lexeme} {f : Formula} (h : Reads level ts f) :
    ts ≠ [] := by
  induction h with
  | atom h =>
    obtain ⟨t, rest, rfl, _⟩ := h.head
    exact List.cons_ne_nil t rest
  | operand _ ih | conjunct _ ih => exact ih
  | group _ _ _ | negation _ _ => exact List.cons_ne_nil _ _
  | conjunction _ _ _ | disjunction _ _ _ =>
    exact List.append_ne_nil_of_right_ne_nil _ (List.cons_ne_nil _ _)

/-- A text has at most one reading. -/
theorem unique {level : Level} {ts : List Lexeme} {f g : Formula} (hf : Reads level ts f)
    (hg : Reads level ts g) : f = g := by
  induction hf generalizing g with
  | atom h =>
    obtain ⟨t, rest, rfl, hnegation⟩ := h.head
    generalize hall : t :: rest = all at hg
    cases hg with
    | atom _ => rfl
    | negation hdenial _ => exact absurd ((List.cons.inj hall).1 ▸ hdenial) hnegation
    | group hopening hclosing h' =>
      obtain ⟨roles, hroles, _⟩ := h'.exists_outline
      exact absurd ⟨_, _, _, roles, hall, hopening, hclosing, hroles⟩ h.notEnclosed
  | @group opening closing ts f hopening hclosing h ih =>
    generalize hall : opening :: ts ++ [closing] = all at hg
    cases hg with
    | atom h' =>
      obtain ⟨roles, hroles, _⟩ := h.exists_outline
      exact absurd ⟨_, _, _, roles, hall.symm, hopening, hclosing, hroles⟩ h'.notEnclosed
    | negation hdenial _ =>
      have hrole := (List.cons.inj hall).1 ▸ hopening
      simp [hrole] at hdenial
    | group _ _ h =>
      obtain ⟨rfl, _⟩ := List.append_inj' (List.cons.inj hall).2 rfl
      exact ih h
  | @negation denial ts f hdenial _ ih =>
    generalize hall : denial :: ts = all at hg
    cases hg with
    | atom h =>
      obtain ⟨t, rest, rfl, hfirst⟩ := h.head
      exact absurd ((List.cons.inj hall).1 ▸ hdenial) hfirst
    | negation _ h =>
      obtain ⟨_, rfl⟩ := List.cons.inj hall
      rw [ih h]
    | group hopening _ _ =>
      have hrole := (List.cons.inj hall).1 ▸ hdenial
      simp [hrole] at hopening
  | operand h ih =>
    cases hg with
    | operand h' => exact ih h'
    | conjunction hboth hleft hright =>
      exact (h.not_join hboth rfl rfl hleft hright).elim
  | @conjunction ts us both f _ hboth hleft hright ihleft ihright =>
    generalize hall : ts ++ both :: us = all at hg
    cases hg with
    | operand h =>
      exact ((hall ▸ h).not_join hboth rfl rfl hleft hright).elim
    | conjunction hboth' hleft' hright' =>
      obtain ⟨rfl, rfl⟩ := parts_eq rfl rfl hboth hboth' hleft hright hleft' hright' hall
      rw [ihleft hleft', ihright hright']
  | conjunct h ih =>
    cases hg with
    | conjunct h' => exact ih h'
    | disjunction heither hleft hright =>
      exact (h.not_join heither rfl rfl hleft hright).elim
  | @disjunction ts us either f _ heither hleft hright ihleft ihright =>
    generalize hall : ts ++ either :: us = all at hg
    cases hg with
    | conjunct h =>
      exact ((hall ▸ h).not_join heither rfl rfl hleft hright).elim
    | disjunction heither' hleft' hright' =>
      obtain ⟨rfl, rfl⟩ := parts_eq rfl rfl heither heither' hleft hright hleft' hright' hall
      rw [ihleft hleft', ihright hright']

end Reads

end EntitySql
