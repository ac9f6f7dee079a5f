import EntitySql.Proofs.Comparisons
import EntitySql.Proofs.Reading.Shape
/-!
# Conjunctions of texts

Texts with `AND` between them are read as the conjunction of what each of them is read as, provided that none has
an `OR` outside parentheses. The grammar leans to the left and the texts are joined to the right, so one text is
cut off in front, however many conjuncts it has itself (`Reads.exists_of_append`). The truth of a joined
predicate then is that of its parts, whatever these are.
-/

namespace EntitySql

open Lexeme

/-! ## Cutting a text in two -/

/-- Where a text closes what it opens and its front does so too, what follows a connective behind the front
does. -/
theorem Lexeme.exists_outline_behind {ts us : List Lexeme} {t : Lexeme} (ht : t.role.isConnective = true)
    {a b : List Role} (hts : outline 0 ts = some a) (h : outline 0 (ts ++ t :: us) = some b) :
    ∃ c, outline 0 us = some c := by
  obtain ⟨hopening, hclosing⟩ := Role.ne_of_isConnective ht
  rw [outline_append hts, Option.map_eq_some_iff] at h
  obtain ⟨tail, htail, _⟩ := h
  obtain ⟨inner, hinner, _⟩ := outline_of_cons rfl hopening hclosing htail
  exact ⟨inner, hinner⟩

namespace Reads

variable {ts us : List Lexeme} {both : Lexeme} {f : Formula} {a b : List Role}

/-- A conjunction of two texts is read as the conjunction of their readings, up to the order in which conjuncts are
put together. -/
theorem exists_of_append (hboth : both.role = .conjunction) (hts : outline 0 ts = some a)
    (hus : outline 0 us = some b) (h : Reads .conjunction (ts ++ both :: us) f) :
    ∃ g g', Reads .conjunction ts g ∧ Reads .conjunction us g' ∧
      ∀ α, f.truth α = (g.truth α).and (g'.truth α) := by
  have hconnective : both.role.isConnective = true := by rw [hboth]; rfl
  have hoperand : Level.operand.admits both.role = false := by rw [hboth]; rfl
  generalize hall : ts ++ both :: us = all at h
  generalize hlevel : Level.conjunction = level at h
  induction h generalizing us b with
  | atom | group | negation | conjunct | disjunction => cases hlevel
  | operand h => exact ((hall ▸ h).not_append hconnective hoperand hts hus).elim
  | @conjunction ts' us' both' f' g' hboth' hleft hright ih _ =>
    rcases List.append_eq_append_iff.1 hall with ⟨middle, hfront, hback⟩ | ⟨middle, hfront, hback⟩
    · cases middle with
      | nil =>
        obtain ⟨rfl, rfl⟩ : both = both' ∧ us = us' := by simpa using hback
        obtain rfl : ts' = ts := by simpa using hfront
        exact ⟨f', g', hleft, .operand hright, fun _ => rfl⟩
      | cons x middle =>
        -- The cut is inside the conjuncts on the left, which the last one has to follow.
        obtain ⟨rfl, rfl⟩ : both = x ∧ us = middle ++ both' :: us' := by simpa using hback
        obtain ⟨_, hleftOutline, _⟩ := hleft.exists_outline
        obtain ⟨_, hmiddle⟩ := exists_outline_behind hconnective hts (hfront ▸ hleftOutline)
        obtain ⟨g, g'', hg, hg'', htruth⟩ := ih hmiddle hfront.symm rfl
        refine ⟨g, .and g'' g', hg, .conjunction hboth' hg'' hright, fun α => ?_⟩
        rw [Formula.truth, Formula.truth, htruth, Truth.and_assoc]
    · cases middle with
      | nil =>
        obtain ⟨rfl, rfl⟩ : both' = both ∧ us' = us := by simpa using hback
        obtain rfl : ts = ts' := by simpa using hfront
        exact ⟨f', g', hleft, .operand hright, fun _ => rfl⟩
      | cons x middle =>
        -- The cut would be inside the last conjunct, which is no conjunction.
        obtain ⟨rfl, rfl⟩ : both' = x ∧ us' = middle ++ both :: us := by simpa using hback
        obtain ⟨_, hleftOutline, _⟩ := hleft.exists_outline
        obtain ⟨_, hmiddle⟩ := exists_outline_behind (by rw [hboth']; rfl) hleftOutline (hfront ▸ hts)
        exact (hright.not_append hconnective hoperand hmiddle hus).elim

/-- The conjuncts of two conjunctions form one. -/
theorem exists_conjunction {g g' : Formula} (hboth : both.role = .conjunction) (hts : Reads .conjunction ts g)
    (hus : Reads .conjunction us g') : ∃ f, Reads .conjunction (ts ++ both :: us) f := by
  generalize hlevel : Level.conjunction = level at hus
  induction hus with
  | atom | group | negation | conjunct | disjunction => cases hlevel
  | operand h => exact ⟨_, .conjunction hboth hts h⟩
  | conjunction hboth' _ hright ih _ =>
    obtain ⟨f, hf⟩ := ih rfl
    have hlonger := Reads.conjunction hboth' hf hright
    rw [List.append_assoc, List.cons_append] at hlonger
    exact ⟨_, hlonger⟩

/-- A text without `OR` outside parentheses is a conjunction. -/
theorem conjunction_of_not_mem (h : Reads .expression ts f) (hts : outline 0 ts = some a)
    (hfree : .disjunction ∉ a) : Reads .conjunction ts f := by
  cases h with
  | conjunct h => exact h
  | disjunction heither hleft hright =>
    obtain ⟨_, hleft, _⟩ := hleft.exists_outline
    obtain ⟨_, hright, _⟩ := hright.exists_outline
    rw [outline_join heither rfl hleft hright] at hts
    cases hts
    exact absurd (by simp) hfree

/-- A text with an `OR` outside parentheses is a disjunction. -/
theorem exists_or_of_mem (h : Reads .expression ts f) (hts : outline 0 ts = some a)
    (hmem : .disjunction ∈ a) : ∃ g g', f = .or g g' := by
  cases h with
  | conjunct h =>
    obtain ⟨roles, hroles, hadmits⟩ := h.exists_outline
    cases hts.symm.trans hroles
    exact absurd (hadmits _ hmem) (by decide)
  | disjunction => exact ⟨_, _, rfl⟩

end Reads

namespace Dialect

variable {d : Dialect} {α : List Lexeme → Truth} {first second : List Char}

/-- Whether a text can be read as a condition, and that is true. -/
def IsTrue (d : Dialect) (α : List Lexeme → Truth) (text : List Char) : Prop :=
  ∃ f, Reads .expression (d.lexemes text) f ∧ f.truth α = .yes

/-- Texts with `AND` between them are true together if and only if each of them is, unless one of them has an `OR`
outside parentheses. -/
theorem isTrue_and_iff (hfirst : d.Outlined first false) (hsecond : d.Outlined second false) :
    d.IsTrue α (first ++ (" AND ".toList ++ second)) ↔ d.IsTrue α first ∧ d.IsTrue α second := by
  obtain ⟨roles, hroles, hfree⟩ := hfirst.outline
  obtain ⟨roles', hroles', hfree'⟩ := hsecond.outline
  have hboth : (Lexeme.word ['A', 'N', 'D']).role = .conjunction := rfl
  have hlexemes := lexemes_and hfirst.settles second
  constructor
  · rintro ⟨f, hf, htruth⟩
    obtain ⟨whole, hwhole, hfreeWhole⟩ := (hfirst.conjunction hsecond).outline
    have hconjunction := hf.conjunction_of_not_mem hwhole (by simpa using hfreeWhole)
    rw [hlexemes] at hconjunction
    obtain ⟨g, g', hg, hg', hand⟩ := hconjunction.exists_of_append hboth hroles hroles'
    obtain ⟨hyes, hyes'⟩ := Truth.and_eq_yes.1 ((hand α).symm.trans htruth)
    exact ⟨⟨g, .conjunct hg, hyes⟩, g', .conjunct hg', hyes'⟩
  · rintro ⟨⟨g, hg, hyes⟩, g', hg', hyes'⟩
    obtain ⟨f, hf⟩ := (hg.conjunction_of_not_mem hroles (by simpa using hfree)).exists_conjunction hboth
      (hg'.conjunction_of_not_mem hroles' (by simpa using hfree'))
    obtain ⟨h, h', hh, hh', hand⟩ := hf.exists_of_append hboth hroles hroles'
    refine ⟨f, by rw [hlexemes]; exact .conjunct hf, ?_⟩
    rw [hand, (Reads.conjunct hh).unique hg, (Reads.conjunct hh').unique hg']
    exact Truth.and_eq_yes.2 ⟨hyes, hyes'⟩

end Dialect

/-! ## Joined predicates -/

namespace Predicate

variable {d : Dialect} {p : Predicate} {ps : List Predicate} {α : List Lexeme → Truth}

/-- Whether a predicate holds by itself: it says nothing, or its text is true. -/
def Holds (d : Dialect) (α : List Lexeme → Truth) (p : Predicate) : Prop := p = [] ∨ d.IsTrue α (p.text d)

theorem holds_iff (hne : p ≠ []) : Holds d α p ↔ d.IsTrue α (p.text d) := or_iff_right hne

theorem join_singleton (disjunctive : Bool) (p : Predicate) : join disjunctive [p] = p := by
  simp [join, List.intercalate]

theorem joinGrouped_singleton (grouped disjunctive : Bool) (p : Predicate) :
    joinGrouped grouped disjunctive [p] = p := by
  simp [joinGrouped, join_singleton]

/-- Parts without `OR` outside parentheses have none where they are joined by `AND`. -/
theorem outlined_join_of_forall (hp : d.Outlined (p.text d) false)
    (hps : ∀ q ∈ ps, d.Outlined (q.text d) false) : d.Outlined ((join false (p :: ps)).text d) false := by
  induction ps generalizing p with
  | nil => rwa [join_singleton]
  | cons q rest ih =>
    rw [text_join_cons]
    exact hp.conjunction (ih (hps q (.head _)) fun r hr => hps r (.tail _ hr))

/-- Parts that are joined by `AND` hold together if and only if each of them holds, whatever they are, unless one
of them has an `OR` outside parentheses. -/
theorem isTrue_join_iff (hp : p ≠ [] ∧ d.Outlined (p.text d) false)
    (hps : ∀ q ∈ ps, q ≠ [] ∧ d.Outlined (q.text d) false) :
    d.IsTrue α ((join false (p :: ps)).text d) ↔ ∀ q ∈ p :: ps, Holds d α q := by
  induction ps generalizing p with
  | nil => rw [join_singleton, List.forall_mem_singleton, holds_iff hp.1]
  | cons q rest ih =>
    obtain ⟨hq, hrest⟩ := List.forall_mem_cons.1 hps
    have hbehind := outlined_join_of_forall hq.2 fun r hr => (hrest r hr).2
    rw [text_join_cons, if_neg Bool.false_ne_true, Dialect.isTrue_and_iff hp.2 hbehind, ih hq hrest,
      List.forall_mem_cons (a := p), holds_iff hp.1]

/-- Parts of which none is divided have no `OR` outside parentheses. -/
theorem forall_outlined_of_forall₂ {shapes : List Shape} (h : List.Forall₂ (Fits d) shapes ps)
    (hshapes : ∀ shape ∈ shapes, shape ≠ .nothing ∧ shape.isDivided = false) :
    ∀ q ∈ ps, q ≠ [] ∧ d.Outlined (q.text d) false := by
  induction h with
  | nil => exact nofun
  | cons hq _ ih =>
    obtain ⟨⟨hsome, hwhole⟩, hrest⟩ := List.forall_mem_cons.1 hshapes
    exact List.forall_mem_cons.2
      ⟨⟨fun hnil => hsome (hq.eq_nil_iff.1 hnil), hwhole ▸ hq.outlined⟩, ih hrest⟩

end Predicate

namespace Compiler

open Predicate

variable {c : Compiler} {m : Member} {qualifier? : Option String} {list : Filter} {α : List Lexeme → Truth}

/-- Whether an entry of a filter holds by itself. -/
def EntryHolds (c : Compiler) (m : Member) (qualifier? : Option String) (α : List Lexeme → Truth)
    (entry : String × FilterEntry) : Prop :=
  ∃ p, c.entry m qualifier? true entry.1 entry.2 = .ok p ∧ Predicate.Holds c.dialect α p

theorem exists_entries_iff {grouped : Bool} :
    (∃ ps, c.entries m qualifier? grouped list = .ok ps) ↔
      ∀ entry ∈ list, ∃ p, c.entry m qualifier? grouped entry.1 entry.2 = .ok p := by
  rw [entries_eq_mapM]
  constructor
  · rintro ⟨ps, h⟩ entry hentry
    obtain ⟨parts, hparts, _⟩ := ok_of_bind_eq_ok h
    exact ok_of_mapM_eq_ok hparts hentry
  · intro hall
    obtain ⟨parts, hparts⟩ := exists_mapM_eq_ok hall
    rw [hparts]
    exact ⟨_, rfl⟩

/-- The parts that are left of a filter hold if and only if all its entries hold. -/
theorem forall_holds_iff {ps : List Predicate} (h : c.entries m qualifier? true list = .ok ps) :
    (∀ p ∈ ps, Predicate.Holds c.dialect α p) ↔ ∀ entry ∈ list, c.EntryHolds m qualifier? α entry := by
  rw [entries_eq_mapM] at h
  obtain ⟨parts, hparts, h⟩ := ok_of_bind_eq_ok h
  cases h
  constructor
  · intro hall entry hentry
    obtain ⟨p, hp, hcompiled⟩ := exists_mem_of_mapM_eq_ok hparts hentry
    refine ⟨p, hcompiled, ?_⟩
    cases hempty : p.isEmpty with
    | true => exact .inl (List.isEmpty_iff.1 hempty)
    | false => exact hall p (List.mem_filter.2 ⟨hp, by rw [hempty]; rfl⟩)
  · intro hall p hp
    have hp := (List.mem_filter.1 hp).1
    rw [← filterMap_toOption_of_mapM_eq_ok hparts] at hp
    obtain ⟨entry, hentry, hcompiled⟩ := List.mem_filterMap.1 hp
    obtain ⟨q, hq, hholds⟩ := hall entry hentry
    rwa [Except.ok.inj (hq.symm.trans (toOption_eq_some_iff.1 hcompiled))] at hholds

/-! ## Entries of a filter -/

theorem entryShapes_eq_map (c : Compiler) (m : Member) (qualifier? : Option String) (list : Filter) :
    c.entryShapes m qualifier? list = list.map fun entry => c.entryShape m qualifier? entry.2 := by
  induction list with
  | nil => rfl
  | cons entry rest ih => rw [entryShapes, ih, List.map_cons]

/-- Whether the raw SQL of an entry closes what it opens, and that of its conditions has no connective outside
parentheses. -/
def ClosesEntry (c : Compiler) (m : Member) (entry : String × FilterEntry) : Prop :=
  c.BalancesAll entry.2.raws ∧ entry.2.AllConditions (c.ClosesCondition m) entry.1

theorem closes_of_forall (h : ∀ entry ∈ list, c.ClosesEntry m entry) :
    c.BalancesAll (FilterEntry.rawsOfEntries list) ∧ Filter.AllConditions (c.ClosesCondition m) list := by
  induction list with
  | nil => exact ⟨nofun, trivial⟩
  | cons entry rest ih =>
    obtain ⟨⟨hraws, hconditions⟩, hrest⟩ := List.forall_mem_cons.1 h
    obtain ⟨hrawsRest, hconditionsRest⟩ := ih hrest
    exact ⟨fun sql hsql => (List.mem_append.1 hsql).elim (hraws sql) (hrawsRest sql),
      hconditions, hconditionsRest⟩

/-- Whether a text means that all entries hold. If an entry has an `OR` outside parentheses, it is a disjunction
instead. -/
def MeansAll (c : Compiler) (m : Member) (qualifier? : Option String) (list : Filter) (text : List Char) : Prop :=
  ((∀ entry ∈ list, (c.entryShape m qualifier? entry.2).isDivided = false) →
      ∀ α, c.dialect.IsTrue α text ↔ ∀ entry ∈ list, c.EntryHolds m qualifier? α entry) ∧
    ((∃ entry ∈ list, (c.entryShape m qualifier? entry.2).isDivided = true) →
      ∀ f, Reads .expression (c.dialect.lexemes text) f → ∃ g g', f = .or g g')

/-- The entries of a filter, each of which has to be a single operand, are joined by `AND`. -/
theorem meansAll_join (hcloses : ∀ entry ∈ list, c.ClosesEntry m entry) {ps : List Predicate}
    (hentries : c.entries m qualifier? true list = .ok ps) (hne : ps ≠ []) :
    c.MeansAll m qualifier? list ((join false ps).text c.dialect) := by
  obtain ⟨hraws, hconditions⟩ := closes_of_forall hcloses
  have hfits := fits_entries m qualifier? list hraws hconditions ps hentries
  rw [FitsAll, entryShapes_eq_map] at hfits
  have hshapes : ∀ shape ∈ (list.map fun entry => c.entryShape m qualifier? entry.2).filter (· ≠ .nothing),
      shape ≠ .nothing ∧ ∃ entry ∈ list, c.entryShape m qualifier? entry.2 = shape := by
    intro shape hshape
    obtain ⟨hmem, hsome⟩ := List.mem_filter.1 hshape
    exact ⟨of_decide_eq_true hsome, List.mem_map.1 hmem⟩
  constructor
  · intro hwhole α
    have houtlined := forall_outlined_of_forall₂ hfits fun shape hshape => by
      obtain ⟨hsome, entry, hentry, rfl⟩ := hshapes shape hshape
      exact ⟨hsome, hwhole entry hentry⟩
    cases ps with
    | nil => exact absurd rfl hne
    | cons p rest =>
      obtain ⟨hp, hrest⟩ := List.forall_mem_cons.1 houtlined
      rw [isTrue_join_iff hp hrest, forall_holds_iff hentries]
  · rintro ⟨entry, hentry, hdivided⟩ f hf
    have hmem : c.entryShape m qualifier? entry.2 ∈
        (list.map fun entry => c.entryShape m qualifier? entry.2).filter (· ≠ .nothing) := by
      refine List.mem_filter.2 ⟨List.mem_map_of_mem hentry, decide_eq_true fun hnothing => ?_⟩
      rw [hnothing] at hdivided
      cases hdivided
    generalize (list.map fun entry => c.entryShape m qualifier? entry.2).filter (· ≠ .nothing) = shapes
      at hfits hmem
    cases hfits with
    | nil => cases hmem
    | @cons shape p shapes rest hp hrest =>
      obtain ⟨roles, hroles, hiff⟩ := (outlined_join hp hrest).outline
      exact hf.exists_or_of_mem hroles (hiff.2 (List.any_eq_true.2 ⟨_, hmem, hdivided⟩))

end Compiler

end EntitySql
