import EntitySql.Proofs.Lexing.Lexeme
/-!
# Truth of conditions

SQL knows three truth values. A condition is a formula over fragments of text that have no Boolean
structure of their own; given a truth value for every fragment it has one itself.
-/

namespace EntitySql

/-- A truth value of SQL. -/
inductive Truth
  | no
  /-- Neither, as where a null is compared. -/
  | unknown
  | yes
deriving DecidableEq, Repr

namespace Truth

/-- The denial. -/
def not : Truth → Truth
  | no => yes
  | unknown => unknown
  | yes => no

/-- Whether both hold. -/
def and : Truth → Truth → Truth
  | yes, t => t
  | unknown, no => no
  | unknown, _ => unknown
  | no, _ => no

/-- Whether one of the two holds. -/
def or : Truth → Truth → Truth
  | no, t => t
  | unknown, yes => yes
  | unknown, _ => unknown
  | yes, _ => yes

/-- Whether all hold. -/
def all : List Truth → Truth := List.foldr and yes

/-- Whether any holds. -/
def any : List Truth → Truth := List.foldr or no

/-- Whether any of several alternatives holds, or all of several demands. -/
def joined (disjunctive : Bool) (ts : List Truth) : Truth := if disjunctive then any ts else all ts

theorem and_assoc (s t u : Truth) : (s.and t).and u = s.and (t.and u) := by
  cases s <;> cases t <;> cases u <;> rfl

theorem or_assoc (s t u : Truth) : (s.or t).or u = s.or (t.or u) := by
  cases s <;> cases t <;> cases u <;> rfl

@[simp]
theorem and_yes (t : Truth) : t.and yes = t := by cases t <;> rfl

@[simp]
theorem or_no (t : Truth) : t.or no = t := by cases t <;> rfl

theorem and_eq_yes {s t : Truth} : s.and t = yes ↔ s = yes ∧ t = yes := by
  cases s <;> cases t <;> simp [and]

@[simp]
theorem all_cons (t : Truth) (ts : List Truth) : all (t :: ts) = t.and (all ts) := rfl

@[simp]
theorem any_cons (t : Truth) (ts : List Truth) : any (t :: ts) = t.or (any ts) := rfl

@[simp]
theorem all_nil : all [] = yes := rfl

@[simp]
theorem any_nil : any [] = no := rfl

end Truth

/-- A condition over fragments of text. -/
inductive Formula
  | atom (fragment : List Lexeme)
  | not (f : Formula)
  | and (f g : Formula)
  | or (f g : Formula)
deriving DecidableEq, Repr

namespace Formula

/-- The truth of a condition where the fragments have the given truth. -/
def truth (assign : List Lexeme → Truth) : Formula → Truth
  | atom fragment => assign fragment
  | not f => (f.truth assign).not
  | and f g => (f.truth assign).and (g.truth assign)
  | or f g => (f.truth assign).or (g.truth assign)

/-- The formulas joined from left to right. -/
def joined (disjunctive : Bool) (f : Formula) (fs : List Formula) : Formula :=
  fs.foldl (if disjunctive then or else and) f

theorem truth_foldl_and (assign : List Lexeme → Truth) (f : Formula) (fs : List Formula) :
    (fs.foldl and f).truth assign =
      (f.truth assign).and (Truth.all (fs.map (truth assign))) := by
  induction fs generalizing f with
  | nil => simp
  | cons g rest ih =>
    rw [List.foldl_cons, ih, truth, Truth.and_assoc]
    rfl

theorem truth_foldl_or (assign : List Lexeme → Truth) (f : Formula) (fs : List Formula) :
    (fs.foldl or f).truth assign = (f.truth assign).or (Truth.any (fs.map (truth assign))) := by
  induction fs generalizing f with
  | nil => simp
  | cons g rest ih =>
    rw [List.foldl_cons, ih, truth, Truth.or_assoc]
    rfl

theorem truth_joined (assign : List Lexeme → Truth) (disjunctive : Bool) (f : Formula)
    (fs : List Formula) : (joined disjunctive f fs).truth assign =
      Truth.joined disjunctive ((f :: fs).map (truth assign)) := by
  cases disjunctive with
  | true => simp [joined, Truth.joined, truth_foldl_or]
  | false => simp [joined, Truth.joined, truth_foldl_and]

end Formula

end EntitySql
