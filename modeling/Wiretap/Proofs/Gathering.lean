import Mathlib.Data.List.Induction
import Wiretap.Proofs.Lookup
import Wiretap.Query
/-!
# Tables that gather by key

Twice a list of things is **gathered** into a table: counters that fall together in a query are
added up under their new keys, and packets are collected into groups.  In both cases a key ends up
with what all the things that have it come to one after another, and with no row if nothing has it
(`get?_gather`).  Where things may be added in any order, the order of the list does not show
(`get?_gather_perm`); so it is for counters (`Query.get?_regroup_perm`), while packets keep theirs.
-/

namespace Wiretap

namespace Table

variable {α : Type w} {κ : Type u} {ν : Type v} [BEq κ]

/-- The table of what the elements of a list come to, key by key. -/
def gather (key : α → κ) (add : ν → α → ν) (zero : ν) (l : List α) : Table κ ν :=
  l.foldl (fun t a => t.alter (key a) fun v => add (v.getD zero) a) .empty

variable [EquivBEq κ] {key : α → κ} {add : ν → α → ν} {zero : ν}

/-- **What a key ends up with.**  By induction on the list, from its last element back. -/
theorem get?_gather (l : List α) (k : κ) :
    (gather key add zero l).get? k =
      if (l.filter fun a => key a == k) = [] then none
      else some ((l.filter fun a => key a == k).foldl add zero) := by
  induction l using List.reverseRecOn with
  | nil => rfl
  | append_singleton l a ih =>
    have hstep : gather key add zero (l ++ [a]) =
        (gather key add zero l).alter (key a) fun v => add (v.getD zero) a := by
      rw [gather, List.foldl_concat]
      rfl
    rw [hstep, List.filter_append, List.filter_singleton]
    by_cases hkey : (key a == k) = true
    · have hne : (l.filter fun a => key a == k) ++ [a] ≠ [] := by simp
      rw [hkey, cond_true, if_neg hne, List.foldl_concat, ← get?_congr _ hkey, get?_alter_self,
        get?_congr _ hkey, ih]
      split
      · rename_i hnone
        rw [hnone]
        rfl
      · rfl
    · have hother : (key a == k) = false := Bool.eq_false_iff.2 hkey
      rw [hother, cond_false, List.append_nil, get?_alter_other _ hother, ih]

/-- Where elements may be added in any order, they may come in any order. -/
theorem get?_gather_perm {l l' : List α} (h : l.Perm l')
    (hadd : ∀ v a b, add (add v a) b = add (add v b) a) (k : κ) :
    (gather key add zero l).get? k = (gather key add zero l').get? k := by
  have hfilter := h.filter fun a => key a == k
  have hnil : (l.filter fun a => key a == k) = [] ↔ (l'.filter fun a => key a == k) = [] := by
    rw [← List.length_eq_zero_iff, ← List.length_eq_zero_iff, hfilter.length_eq]
  have hfold := hfilter.foldl_eq' (fun a _ b _ v => hadd v a b) zero
  rw [get?_gather, get?_gather, hfold]
  exact if_congr hnil rfl rfl

end Table

/-- Capped sums do not depend on what is added first. -/
theorem cappedAdd_right_comm (a b c : UInt64) :
    cappedAdd (cappedAdd a b) c = cappedAdd (cappedAdd a c) b := by
  rw [← UInt64.toNat_inj, toNat_cappedAdd, toNat_cappedAdd, toNat_cappedAdd, toNat_cappedAdd]
  omega

/-- Neither do capped sums of counters. -/
theorem Stats.plus_right_comm (s a b : Stats) : (s.plus a).plus b = (s.plus b).plus a := by
  rw [plus, plus, plus, plus, Stats.mk.injEq]
  exact ⟨cappedAdd_right_comm _ _ _, cappedAdd_right_comm _ _ _, cappedAdd_right_comm _ _ _,
    cappedAdd_right_comm _ _ _, cappedAdd_right_comm _ _ _⟩

namespace Query

variable {κ : Type u} [BEq κ]

/-- Regrouping is a gathering of rows under new keys. -/
theorem regroup_eq_gather (rekey : κ → κ) (rows : List (κ × Stats)) :
    regroup rekey rows =
      Table.gather (fun row => rekey row.1) (fun s row => s.plus row.2) .zero rows := rfl

/-- One more row is added under its new key. -/
theorem regroup_concat (rekey : κ → κ) (rows : List (κ × Stats)) (row : κ × Stats) :
    regroup rekey (rows ++ [row]) =
      (regroup rekey rows).alter (rekey row.1) fun s => (s.getD .zero).plus row.2 := by
  rw [regroup, List.foldl_concat, regroup]

variable [EquivBEq κ]

/-- What a new key has is what falls together under it. -/
theorem get?_regroup (rekey : κ → κ) (rows : List (κ × Stats)) (k : κ) :
    (regroup rekey rows).get? k =
      if (rows.filter fun row => rekey row.1 == k) = [] then none
      else some ((rows.filter fun row => rekey row.1 == k).foldl (fun s row => s.plus row.2)
        .zero) := by
  rw [regroup_eq_gather]
  exact Table.get?_gather rows k

/-- Counters may be added up in any order. -/
theorem get?_regroup_perm (rekey : κ → κ) {rows rows' : List (κ × Stats)} (h : rows.Perm rows')
    (k : κ) :
    (regroup rekey rows).get? k = (regroup rekey rows').get? k := by
  rw [regroup_eq_gather, regroup_eq_gather]
  exact Table.get?_gather_perm h (fun s a b => s.plus_right_comm a.2 b.2) k

end Query

end Wiretap
