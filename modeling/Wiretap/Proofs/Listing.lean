import Mathlib.Data.List.Induction
import Mathlib.Data.List.Sort
import Wiretap.Proofs.Lookup
/-!
# Tables in order, and tables made of rows

A table is listed in the order of its keys.  Listing moves rows and does nothing else to them
(`sorted_perm`), so a table that is made of the listed rows of another holds the same, and is
listed in the same way (`sorted_ofList_sorted`).  What carries this is that writing rows with
pairwise different keys into an empty table puts down just these rows (`rows_ofList`).  Two tables
are listed alike exactly when they answer alike (`sorted_eq_iff`).

Where there is no order to list things in, they are listed as they first came (`eraseDups_concat`).
-/

namespace Wiretap

section FirstCome

variable {α : Type*} [DecidableEq α]

/-- What came before is not new; what is new is put behind the others. -/
theorem eraseDups_concat (l : List α) (a : α) :
    (l ++ [a]).eraseDups = if a ∈ l then l.eraseDups else l.eraseDups ++ [a] := by
  rw [List.eraseDups_append]
  by_cases hknown : a ∈ l
  · have hremoved : [a].removeAll l = [] := by simp [List.removeAll, hknown]
    rw [hremoved, if_pos hknown]
    exact List.append_nil _
  · have hkept : [a].removeAll l = [a] := by simp [List.removeAll, hknown]
    rw [hkept, if_neg hknown]
    rfl

/-- Nothing is listed twice. -/
theorem nodup_eraseDups (l : List α) : l.eraseDups.Nodup := by
  induction l using List.reverseRecOn with
  | nil => exact List.nodup_nil
  | append_singleton l a ih =>
    rw [eraseDups_concat]
    split
    · exact ih
    · rename_i hnew
      refine List.nodup_append.2 ⟨ih, List.nodup_singleton a, ?_⟩
      intro b hb c hc hbc
      rw [hbc, List.mem_singleton.1 hc, List.mem_eraseDups] at hb
      exact hnew hb

end FirstCome

end Wiretap

namespace Wiretap.Table

/-- A list that is sorted by a comparison is in its order. -/
theorem pairwise_mergeSort_isLE {α : Type*} (order : α → α → Ordering) [Std.TransCmp order]
    (l : List α) :
    (l.mergeSort fun a b => (order a b).isLE).Pairwise fun a b => (order a b).isLE = true := by
  refine List.pairwise_mergeSort ?_ ?_ l
  · intro a b c hab hbc
    exact Std.TransCmp.isLE_trans hab hbc
  · intro a b
    have hswap : order b a = (order a b).swap := Std.OrientedCmp.eq_swap
    rw [hswap]
    cases order a b <;> rfl

section Rising

variable {α : Type*} (order : α → α → Ordering) [Std.TransCmp order]

instance irrefl_rising : Std.Irrefl fun a b => order a b = .lt where
  irrefl _ h := Std.OrientedCmp.not_lt_of_lt h h

instance antisymm_rising : Std.Antisymm fun a b => order a b = .lt where
  antisymm _ _ hab hba := absurd hba (Std.OrientedCmp.not_lt_of_lt hab)

end Rising

variable {κ : Type u} {ν : Type v} [BEq κ]

/-- A key without a row gets one at the end. -/
theorem alterRows_of_absent {k : κ} {rows : List (κ × ν)} (h : ∀ row ∈ rows, (row.1 == k) = false)
    (f : Option ν → ν) : alterRows k f rows = rows ++ [(k, f none)] := by
  induction rows with
  | nil => rfl
  | cons row rest ih =>
    have hrow : ¬ (row.1 == k) = true := by simp [h row List.mem_cons_self]
    have hrest := ih fun later hlater => h later (List.mem_cons_of_mem row hlater)
    rw [alterRows, if_neg hrow, hrest, List.cons_append]

/-- Rows with new keys are put behind those of the table. -/
theorem rows_insertAll (t : Table κ ν) {rows : List (κ × ν)}
    (h : (t.rows ++ rows).Pairwise fun a b => (a.1 == b.1) = false) :
    (t.insertAll rows).rows = t.rows ++ rows := by
  induction rows generalizing t with
  | nil => exact (List.append_nil _).symm
  | cons row rest ih =>
    have habsent : ∀ old ∈ t.rows, (old.1 == row.1) = false := by
      intro old hold
      exact (List.pairwise_append.1 h).2.2 old hold row List.mem_cons_self
    have hinsert : (t.insert row.1 row.2).rows = t.rows ++ [row] :=
      alterRows_of_absent habsent _
    have hnext : ((t.insert row.1 row.2).rows ++ rest).Pairwise
        fun a b => (a.1 == b.1) = false := by
      rw [hinsert, List.append_assoc, List.singleton_append]
      exact h
    calc ((t.insert row.1 row.2).insertAll rest).rows
        = (t.insert row.1 row.2).rows ++ rest := ih _ hnext
      _ = t.rows ++ row :: rest := by rw [hinsert, List.append_assoc, List.singleton_append]

/-- **A table of rows with different keys has these rows.** -/
theorem rows_ofList {rows : List (κ × ν)}
    (h : rows.Pairwise fun a b => (a.1 == b.1) = false) : (ofList rows).rows = rows :=
  rows_insertAll empty h

/-- Rows with different keys may be moved. -/
theorem distinct_of_perm [PartialEquivBEq κ] {rows rows' : List (κ × ν)} (h : rows.Perm rows')
    (hdistinct : rows.Pairwise fun a b => (a.1 == b.1) = false) :
    rows'.Pairwise fun a b => (a.1 == b.1) = false := by
  refine (h.pairwise_iff ?_).1 hdistinct
  intro a b hab
  rw [BEq.comm]
  exact hab

variable (t : Table κ ν) (order : κ → κ → Ordering)

/-- Listing moves rows. -/
theorem sorted_perm : (t.sorted order).Perm t.rows := List.mergeSort_perm _ _

/-- No two rows of a sorted table have one key. -/
theorem sorted_distinct [PartialEquivBEq κ] :
    (t.sorted order).Pairwise fun a b => (a.1 == b.1) = false :=
  distinct_of_perm (t.sorted_perm order).symm t.distinct

/-- A table made of sorted rows has these rows. -/
theorem rows_ofList_sorted [PartialEquivBEq κ] :
    (ofList (t.sorted order)).rows = t.sorted order :=
  rows_ofList (t.sorted_distinct order)

/-- No row of a sorted table is there twice. -/
theorem nodup_sorted [LawfulBEq κ] : (t.sorted order).Nodup := by
  refine (t.sorted_distinct order).imp ?_
  rintro a b hab rfl
  rw [BEq.rfl] at hab
  cases hab

/-- The listed rows are in order. -/
theorem sorted_pairwise [Std.TransCmp order] :
    (t.sorted order).Pairwise fun a b => (order a.1 b.1).isLE = true := by
  have hrows : Std.TransCmp fun a b : κ × ν => order a.1 b.1 :=
    { eq_swap := Std.OrientedCmp.eq_swap, isLE_trans := Std.TransCmp.isLE_trans }
  exact pairwise_mergeSort_isLE (fun a b : κ × ν => order a.1 b.1) t.rows

/-- The keys of the listed rows rise from each to the next. -/
theorem sorted_keys_pairwise [LawfulBEq κ] [Std.TransCmp order] [Std.LawfulEqCmp order] :
    ((t.sorted order).map Prod.fst).Pairwise fun a b => order a b = .lt := by
  refine List.pairwise_map.2 ?_
  refine (t.sorted_distinct order).imp₂ ?_ (t.sorted_pairwise order)
  intro a b hdistinct hle
  cases hcmp : order a.1 b.1 with
  | lt => rfl
  | eq =>
    rw [Std.LawfulEqCmp.eq_of_compare hcmp, BEq.rfl] at hdistinct
    cases hdistinct
  | gt =>
    rw [hcmp] at hle
    cases hle

/-- **A table made of listed rows is listed in the same way.** -/
theorem sorted_ofList_sorted [PartialEquivBEq κ] [Std.TransCmp order] :
    (ofList (t.sorted order)).sorted order = t.sorted order := by
  rw [sorted, rows_ofList_sorted]
  exact List.mergeSort_of_pairwise (t.sorted_pairwise order)

/-- The rows that are sorted are those of the table. -/
theorem mem_sorted_iff [LawfulBEq κ] {row : κ × ν} :
    row ∈ t.sorted order ↔ t.get? row.1 = some row.2 := by
  rw [(t.sorted_perm order).mem_iff]
  constructor
  · exact get?_of_mem_rows
  · intro hget
    obtain ⟨key, hkey, hrow⟩ := get?_eq_some_iff.1 hget
    rwa [eq_of_beq hkey] at hrow

/-- **The listing says what the table says, and no more.**  Two tables are listed alike exactly
when every key has the same value in both; the order in which their rows came is lost. -/
theorem sorted_eq_iff [LawfulBEq κ] [Std.TransCmp order] [Std.LawfulEqCmp order]
    {t t' : Table κ ν} : t.sorted order = t'.sorted order ↔ ∀ k, t.get? k = t'.get? k := by
  constructor
  · intro hsame k
    refine Option.ext fun v => ?_
    have hmem : (k, v) ∈ t.sorted order ↔ (k, v) ∈ t'.sorted order := by rw [hsame]
    exact (mem_sorted_iff t order).symm.trans (hmem.trans (mem_sorted_iff t' order))
  · intro hsame
    have hmem : ∀ row, row ∈ t.sorted order ↔ row ∈ t'.sorted order := by
      intro row
      rw [mem_sorted_iff, mem_sorted_iff, hsame]
    have hperm : (t.sorted order).Perm (t'.sorted order) :=
      (List.perm_ext_iff_of_nodup (t.nodup_sorted order) (t'.nodup_sorted order)).2 hmem
    refine hperm.eq_of_pairwise ?_ (t.sorted_pairwise order) (t'.sorted_pairwise order)
    intro a b ha hb hab hba
    have hequal : order a.1 b.1 = .eq := by
      have hswap : order b.1 a.1 = (order a.1 b.1).swap := Std.OrientedCmp.eq_swap
      rw [hswap] at hba
      cases hcmp : order a.1 b.1 with
      | eq => rfl
      | lt => rw [hcmp] at hba; cases hba
      | gt => rw [hcmp] at hab; cases hab
    have hkey : a.1 = b.1 := Std.LawfulEqCmp.eq_of_compare hequal
    have hvalue : some a.2 = some b.2 := by
      rw [← (mem_sorted_iff t' order).1 ((hmem a).1 ha), ← (mem_sorted_iff t' order).1 hb, hkey]
    exact Prod.ext hkey (Option.some.inj hvalue)

end Wiretap.Table
