import Mathlib.Data.List.Nodup
import EntitySql.Migration.Migrator
import EntitySql.Migration.Recording
import EntitySql.Proofs.ByteOrder
/-!
# The order of migrations

A migrator keeps its migrations in ascending order of names. Each new one enters at the place that a binary
search finds, which is right only because the list is in order before, and in order again behind. What comes of
it is the stable sort of the migrations by the bytes of their names (`Migration.IsStableSort`), and if no two names
are the same it does not depend on the order in which they were added
(`Migrator.isStableSort_iff_migrations_addAll`).
-/

namespace EntitySql

variable {σ : Type}

/-! ## The place of a name -/

namespace Migration

/-- Whether migrations are in ascending order of names. -/
abbrev IsAscending (migrations : List (Migration σ)) : Prop :=
  migrations.Pairwise fun first second => first.name ≤ second.name

/-- Whether the first migration whose name is greater stands neither in front of `low` nor behind `high`. -/
structure PlaceWithin (name : String) (migrations : List (Migration σ)) (low high : Nat) : Prop where
  behind : ∀ i m, i < low → migrations[i]? = some m → m.name ≤ name
  before : ∀ i m, high ≤ i → migrations[i]? = some m → ¬m.name ≤ name

theorem IsAscending.name_le {migrations : List (Migration σ)} (h : IsAscending migrations) {i j : Nat}
    (hij : i ≤ j) {first second : Migration σ} (hfirst : migrations[i]? = some first)
    (hsecond : migrations[j]? = some second) : first.name ≤ second.name := by
  obtain ⟨hi, rfl⟩ := List.getElem?_eq_some_iff.1 hfirst
  obtain ⟨hj, rfl⟩ := List.getElem?_eq_some_iff.1 hsecond
  rcases Nat.lt_or_eq_of_le hij with hless | rfl
  · exact List.pairwise_iff_getElem.1 h i j hi hj hless
  · exact String.le_refl _

theorem PlaceWithin.mono {name : String} {migrations : List (Migration σ)} {low high low' high' : Nat}
    (h : PlaceWithin name migrations low high) (hlow : low' ≤ low) (hhigh : high ≤ high') :
    PlaceWithin name migrations low' high' where
  behind i m hi := h.behind i m (Nat.lt_of_lt_of_le hi hlow)
  before i m hi := h.before i m (Nat.le_trans hhigh hi)

/-- A look at one migration tells on which side of it the place is. -/
theorem PlaceWithin.look {name : String} {migrations : List (Migration σ)} (h : IsAscending migrations)
    {low high : Nat} (hplace : PlaceWithin name migrations low high) (middle : Nat) :
    if migrations[middle]?.any fun m => m.name ≤ name then
      PlaceWithin name migrations (middle + 1) high
    else PlaceWithin name migrations low middle := by
  split
  · rename_i hlook
    obtain ⟨m, hm, hle⟩ := (Option.any_eq_true _ _).1 hlook
    exact {
      behind := fun i first hi hfirst =>
        String.le_trans (h.name_le (Nat.le_of_lt_succ hi) hfirst hm) (of_decide_eq_true hle)
      before := hplace.before }
  · rename_i hlook
    refine { behind := hplace.behind, before := fun i second hi hsecond hle => hlook ?_ }
    obtain ⟨hbound, -⟩ := List.getElem?_eq_some_iff.1 hsecond
    have hm : migrations[middle]? = some migrations[middle] :=
      List.getElem?_eq_getElem (Nat.lt_of_le_of_lt hi hbound)
    rw [hm, Option.any_some]
    exact decide_eq_true (String.le_trans (h.name_le hi hm hsecond) hle)

/-- The search ends at the place, as long as it starts around it. -/
theorem placeWithin_searchByName {name : String} {migrations : List (Migration σ)}
    (h : IsAscending migrations) {low size : Nat}
    (hplace : PlaceWithin name migrations low (low + size)) :
    PlaceWithin name migrations (searchByName name migrations low size)
      (searchByName name migrations low size) := by
  fun_induction searchByName name migrations low size with
  | case1 low size hsize middle hbehind ih =>
    have hlook := hplace.look h middle
    rw [if_pos hbehind] at hlook
    exact ih (hlook.mono (Nat.le_succ _) (by omega))
  | case2 low size hsize middle hbehind ih =>
    have hlook := hplace.look h middle
    rw [if_neg hbehind] at hlook
    exact ih (hlook.mono (Nat.le_refl _) (by omega))
  | case3 low size hsize hbehind =>
    have hlook := hplace.look h low
    rw [if_pos hbehind] at hlook
    exact hlook.mono (Nat.le_refl _) (by omega)
  | case4 low size hsize hbehind =>
    have hlook := hplace.look h low
    rwa [if_neg hbehind] at hlook

/-- In ascending order a migration enters between those whose names are not greater and those whose names are. -/
theorem insertByName_eq (m : Migration σ) {migrations : List (Migration σ)} (h : IsAscending migrations) :
    ∃ behind before, migrations = behind ++ before ∧ insertByName m migrations = behind ++ m :: before ∧
      (∀ other ∈ behind, other.name ≤ m.name) ∧ ∀ other ∈ before, ¬other.name ≤ m.name := by
  let place := searchByName m.name migrations 0 migrations.length
  have hplace : PlaceWithin m.name migrations place place := placeWithin_searchByName h {
    behind := fun i first hi => absurd hi (Nat.not_lt_zero i)
    before := fun i second hi hsecond => by
      obtain ⟨hbound, -⟩ := List.getElem?_eq_some_iff.1 hsecond
      omega }
  refine ⟨_, _, (List.take_append_drop _ _).symm, rfl, fun other hother => ?_, fun other hother => ?_⟩
  · obtain ⟨i, hi, rfl⟩ := List.mem_take_iff_getElem.1 hother
    exact hplace.behind i _ (by omega) (List.getElem?_eq_getElem (by omega))
  · obtain ⟨i, hi, rfl⟩ := List.mem_drop_iff_getElem.1 hother
    exact hplace.before _ _ (Nat.le_add_right _ i) (List.getElem?_eq_getElem (by omega))

/-! ## The stable sort -/

/-- Whether the known migrations are the added ones in ascending order of the bytes of their names, where
migrations of one name stand in the order in which they were added. -/
structure IsStableSort (added known : List (Migration σ)) : Prop where
  perm : known.Perm added
  ascending : known.Pairwise fun first second => Text.bytes first.name ≤ Text.bytes second.name
  stable : ∀ name, known.filter (·.name == name) = added.filter (·.name == name)

/-- Two ascending lists of the same migrations are the same if those of each name are. -/
theorem eq_of_isAscending {first second : List (Migration σ)} (hfirst : IsAscending first)
    (hsecond : IsAscending second) (hperm : first.Perm second)
    (hstable : ∀ name, first.filter (·.name == name) = second.filter (·.name == name)) : first = second := by
  induction first generalizing second with
  | nil => exact hperm.nil_eq
  | cons a rest ih =>
    cases second with
    | nil => exact hperm.eq_nil
    | cons b others =>
      obtain ⟨ha, hrest⟩ := List.pairwise_cons.1 hfirst
      obtain ⟨hb, hothers⟩ := List.pairwise_cons.1 hsecond
      have hle : a.name ≤ b.name := by
        rcases List.mem_cons.1 (hperm.mem_iff.2 (.head others)) with rfl | hmem
        · exact String.le_refl _
        · exact ha b hmem
      have hge : b.name ≤ a.name := by
        rcases List.mem_cons.1 (hperm.mem_iff.1 (.head rest)) with rfl | hmem
        · exact String.le_refl _
        · exact hb a hmem
      have hname : b.name = a.name := String.le_antisymm hge hle
      -- The first migration of the least name is the head of both lists.
      have hheads := hstable a.name
      rw [List.filter_cons, if_pos (beq_self_eq_true _), List.filter_cons, if_pos (beq_iff_eq.2 hname)] at hheads
      obtain rfl := (List.cons.inj hheads).1
      rw [ih hrest hothers hperm.cons_inv fun name => ?_]
      have hboth := hstable name
      rw [List.filter_cons, List.filter_cons] at hboth
      split at hboth
      · exact (List.cons.inj hboth).2
      · exact hboth

namespace IsStableSort

variable {added known : List (Migration σ)}

theorem isAscending (h : IsStableSort added known) : IsAscending known :=
  h.ascending.imp Text.bytes_le_bytes_iff.1

theorem nil : IsStableSort ([] : List (Migration σ)) [] := ⟨.refl [], .nil, fun _ => rfl⟩

/-- One more migration is added and enters the list. -/
theorem insertByName (h : IsStableSort added known) (m : Migration σ) :
    IsStableSort (added ++ [m]) (m.insertByName known) := by
  obtain ⟨behind, before, rfl, hinsert, hbehind, hbefore⟩ := insertByName_eq m h.isAscending
  obtain ⟨hascending, hrest, hacross⟩ := List.pairwise_append.1 h.isAscending
  rw [hinsert]
  refine ⟨?_, ?_, fun name => ?_⟩
  · calc (behind ++ m :: before).Perm (m :: (behind ++ before)) := List.perm_middle
      _ |>.Perm (m :: added) := h.perm.cons m
      _ |>.Perm (added ++ [m]) := (List.perm_append_singleton m added).symm
  · refine List.Pairwise.imp Text.bytes_le_bytes_iff.2 (List.pairwise_append.2 ⟨hascending, ?_, ?_⟩)
    · refine List.pairwise_cons.2 ⟨fun other hother => ?_, hrest⟩
      exact (String.le_total _ _).resolve_left (hbefore other hother)
    · intro first hfirst second hsecond
      rcases List.mem_cons.1 hsecond with rfl | hsecond
      · exact hbehind first hfirst
      · exact hacross first hfirst second hsecond
  · rw [List.filter_append, List.filter_append, ← h.stable, List.filter_append, List.append_assoc]
    congr 1
    -- Behind the place no migration has the name of the new one.
    by_cases hname : m.name = name
    · have hnone : before.filter (·.name == name) = [] := by
        refine List.filter_eq_nil_iff.2 fun other hother hsame => hbefore other hother ?_
        have hequal : other.name = m.name := (beq_iff_eq.1 hsame).trans hname.symm
        exact hequal ▸ String.le_refl other.name
      rw [List.filter_cons, if_pos (beq_iff_eq.2 hname), hnone, List.filter_cons, if_pos (beq_iff_eq.2 hname)]
      rfl
    · have hnot : ¬(m.name == name) = true := fun hsame => hname (beq_iff_eq.1 hsame)
      rw [List.filter_cons, if_neg hnot, List.filter_cons, if_neg hnot, List.filter_nil, List.append_nil]

/-- More migrations are added one after the other. -/
theorem foldl_insertByName (h : IsStableSort added known) (more : List (Migration σ)) :
    IsStableSort (added ++ more) (more.foldl (fun known m => m.insertByName known) known) := by
  induction more generalizing added known with
  | nil => rwa [List.append_nil]
  | cons m rest ih =>
    have hrest := ih (h.insertByName m)
    rwa [List.append_assoc, List.singleton_append] at hrest

/-- There is only one stable sort. -/
theorem unique {other : List (Migration σ)} (h : IsStableSort added known) (hother : IsStableSort added other) :
    known = other :=
  eq_of_isAscending h.isAscending hother.isAscending (h.perm.trans hother.perm.symm) fun name =>
    (h.stable name).trans (hother.stable name).symm

end IsStableSort

/-- Where no name stands twice, the order of what was added does not matter. -/
theorem IsStableSort.of_perm {added other known : List (Migration σ)} (h : IsStableSort added known)
    (hnodup : (added.map (·.name)).Nodup) (hother : other.Perm added) : IsStableSort other known := by
  refine ⟨h.perm.trans hother.symm, h.ascending, fun name => (h.stable name).trans ?_⟩
  refine List.Perm.eq_of_pairwise (fun first second hfirst hsecond _ _ => ?_)
    (List.pairwise_of_forall fun _ _ => trivial) (List.pairwise_of_forall fun _ _ => trivial)
    (hother.symm.filter _)
  obtain ⟨hfirst, hname⟩ := List.mem_filter.1 hfirst
  obtain ⟨hsecond, hsame⟩ := List.mem_filter.1 hsecond
  exact List.inj_on_of_nodup_map hnodup hfirst (hother.mem_iff.1 hsecond)
    ((beq_iff_eq.1 hname).trans (beq_iff_eq.1 hsame).symm)

theorem isStableSort_sorted (migrations : List (Migration σ)) : IsStableSort migrations (sorted migrations) :=
  IsStableSort.nil.foldl_insertByName migrations

end Migration

/-! ## Migrators -/

namespace Migrator

/-- Adding migrations changes nothing else about the migrator. -/
theorem addAll_eq (m : Migrator σ) (added : List (Migration σ)) :
    m.addAll added =
      { m with migrations := added.foldl (fun known migration => migration.insertByName known) m.migrations } := by
  induction added generalizing m with
  | nil => rfl
  | cons migration rest ih => exact ih (m.add migration)

theorem isStableSort_migrations_addAll {m : Migrator σ} (hm : m.migrations = []) (added : List (Migration σ)) :
    Migration.IsStableSort added (m.addAll added).migrations := by
  rw [addAll_eq, hm]
  exact Migration.isStableSort_sorted added

theorem addAll_eq_of_perm {m : Migrator σ} (hm : m.migrations = []) {added other : List (Migration σ)}
    (hnodup : (added.map (·.name)).Nodup) (hother : other.Perm added) : m.addAll other = m.addAll added := by
  have hsame : (m.addAll other).migrations = (m.addAll added).migrations :=
    (isStableSort_migrations_addAll hm other).unique
      ((isStableSort_migrations_addAll hm added).of_perm hnodup hother)
  rw [addAll_eq, addAll_eq] at hsame ⊢
  exact congrArg (fun known => { m with migrations := known }) hsame

/-- What a migrator knows is the stable sort of the migrations that were added to it. Where no name stands twice,
the same migrations in any other order are known in the same order and pending in the same order, and calls apply
them and take them back in the same order. -/
theorem isStableSort_iff_migrations_addAll {m : Migrator σ} (hm : m.migrations = [])
    (added : List (Migration σ)) :
    (∀ known, Migration.IsStableSort added known ↔ (m.addAll added).migrations = known) ∧
      ((added.map (·.name)).Nodup → ∀ other, other.Perm added →
        (m.addAll other).migrations = (m.addAll added).migrations ∧
          (m.addAll other).pending = (m.addAll added).pending ∧
          ∀ bounds, (m.addAll other).up bounds = (m.addAll added).up bounds ∧
            (m.addAll other).down bounds = (m.addAll added).down bounds) := by
  have hsort := isStableSort_migrations_addAll hm added
  refine ⟨fun known => ⟨hsort.unique, fun hknown => hknown ▸ hsort⟩, fun hnodup other hother => ?_⟩
  rw [addAll_eq_of_perm hm hnodup hother]
  exact ⟨rfl, rfl, fun bounds => ⟨rfl, rfl⟩⟩

/-- A letter beyond ASCII comes behind all others. -/
theorem isStableSort_iff_migrations_addAll_accent :
    let m : Migrator Recording := { querier := Recording.querier {}, history := Recording.history [] }
    let create (name : String) : Migration Recording := .ofStatements name ["CREATE TABLE " ++ name] []
    let added := ["é", "z", "a"].map create
    let other := ["z", "a", "é"].map create
    m.migrations = [] ∧ (added.map (·.name)).Nodup ∧ other.Perm added ∧
      (m.addAll added).migrations = ["a", "z", "é"].map create ∧
      (m.addAll other).migrations = (m.addAll added).migrations := by
  intro m create added other
  have hnodup : (added.map (·.name)).Nodup := by decide
  have hother : other.Perm added := List.Perm.map create (by decide)
  obtain ⟨hsort, hsame⟩ := isStableSort_iff_migrations_addAll (m := m) rfl added
  refine ⟨rfl, hnodup, hother, (hsort _).1 ?_, (hsame hnodup other hother).1⟩
  have hordered : Migration.IsStableSort (["a", "z", "é"].map create) (["a", "z", "é"].map create) :=
    ⟨.refl _, by decide +kernel, fun _ => rfl⟩
  exact hordered.of_perm (by decide) (List.Perm.map create (by decide))

end Migrator

end EntitySql
