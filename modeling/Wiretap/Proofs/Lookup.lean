import Mathlib.Algebra.BigOperators.Group.List.Basic
import Mathlib.Algebra.GroupWithZero.Nat
import Wiretap.Table
/-!
# Looking a table up, and adding over its rows

A table can be read in two ways: by asking for a key, and by walking its rows.  Walking gives the
key of each row as it was first written, asking takes any key that is the same under `==`.  This
file ties the two together.

* `get?_filterMap` — asking a filtered table is asking the table and filtering the answer, as long
  as the filter cannot tell keys apart that are the same;
* `sum_indicator` — of all rows at most one belongs to a key, so what is spread over the rows for
  one key comes together again exactly when the key has a row;
* `sumOver_alter` — altering a key changes a sum over the rows by what it changes at that key.
-/

namespace Wiretap.Table

variable {κ : Type u} {ν : Type v} {μ : Type w} [BEq κ]

/-- Keys that are the same find the same value. -/
theorem get?_congr [EquivBEq κ] (t : Table κ ν) {k k' : κ} (h : (k == k') = true) :
    t.get? k = t.get? k' := by
  have same : ∀ row : κ × ν, (row.1 == k) = (row.1 == k') := fun row => BEq.congr_right h
  simp only [get?, same]

/-- A key without a row is not found. -/
theorem get?_eq_none {t : Table κ ν} {k : κ} (h : t.contains k = false) : t.get? k = none := by
  rw [contains_eq_isSome, Option.isSome_eq_false_iff, Option.isNone_iff_eq_none] at h
  exact h

@[simp] theorem contains_empty (k : κ) : (empty : Table κ ν).contains k = false := rfl

/-- What is put under a key is found under it. -/
theorem get?_insert_self [ReflBEq κ] (t : Table κ ν) (k : κ) (v : ν) :
    (t.insert k v).get? k = some v :=
  get?_alter_self t k _

/-- What is put under a key changes nothing under another. -/
theorem get?_insert_other [EquivBEq κ] (t : Table κ ν) {k k' : κ} (hk : (k == k') = false)
    (v : ν) : (t.insert k v).get? k' = t.get? k' :=
  get?_alter_other t hk _

/-- A value is found exactly where some row holds it under the same key. -/
theorem get?_eq_some_iff [EquivBEq κ] {t : Table κ ν} {k : κ} {v : ν} :
    t.get? k = some v ↔ ∃ k', (k' == k) = true ∧ (k', v) ∈ t.rows := by
  constructor
  · intro h
    obtain ⟨row, hrow, rfl⟩ := Option.map_eq_some_iff.1 h
    have hkey : (row.1 == k) = true := List.find?_some (p := fun row : κ × ν => row.1 == k) hrow
    exact ⟨row.1, hkey, List.mem_of_find?_eq_some hrow⟩
  · rintro ⟨k', hk, hrow⟩
    have hfind := (t.mem_rows_iff (k', v)).1 hrow
    rw [← t.get?_congr hk]
    exact Option.map_eq_some_iff.2 ⟨(k', v), hfind, rfl⟩

/-- The value of a row is found under its key. -/
theorem get?_of_mem_rows [EquivBEq κ] {t : Table κ ν} {row : κ × ν} (h : row ∈ t.rows) :
    t.get? row.1 = some row.2 :=
  get?_eq_some_iff.2 ⟨row.1, BEq.rfl, h⟩

/-- Nothing is found under a key that was erased. -/
theorem get?_erase_self (t : Table κ ν) (k : κ) : (t.erase k).get? k = none := by
  rw [get?, Option.map_eq_none_iff, List.find?_eq_none]
  intro row hrow
  have hkept := (List.mem_filter.1 hrow).2
  simpa using hkept

/-- Erasing a key changes nothing under another. -/
theorem get?_erase_other [EquivBEq κ] (t : Table κ ν) {k k' : κ} (hk : (k == k') = false) :
    (t.erase k).get? k' = t.get? k' := by
  refine Option.ext fun v => ?_
  rw [get?_eq_some_iff, get?_eq_some_iff]
  constructor
  · rintro ⟨key, hkey, hrow⟩
    exact ⟨key, hkey, (List.mem_filter.1 hrow).1⟩
  · rintro ⟨key, hkey, hrow⟩
    have hother : (key == k) = false := by
      rw [BEq.congr_left hkey, BEq.comm]
      exact hk
    refine ⟨key, hkey, List.mem_filter.2 ⟨hrow, ?_⟩⟩
    show (!(key == k)) = true
    rw [hother]
    rfl

/-- As functions of the key, tables are updated by putting something into them. -/
theorem get?_insert [DecidableEq κ] [LawfulBEq κ] (t : Table κ ν) (k : κ) (v : ν) :
    (t.insert k v).get? = Function.update t.get? k (some v) := by
  funext other
  by_cases hkey : other = k
  · subst hkey
    rw [Function.update_self, get?_insert_self]
  · rw [Function.update_of_ne hkey, get?_insert_other _ (beq_eq_false_iff_ne.2 (Ne.symm hkey))]

/-- They are updated by erasing as well. -/
theorem get?_erase [DecidableEq κ] [LawfulBEq κ] (t : Table κ ν) (k : κ) :
    (t.erase k).get? = Function.update t.get? k none := by
  funext other
  by_cases hkey : other = k
  · subst hkey
    rw [Function.update_self, get?_erase_self]
  · rw [Function.update_of_ne hkey, get?_erase_other _ (beq_eq_false_iff_ne.2 (Ne.symm hkey))]

/-- What is seen of the values, after one was written. -/
theorem map_get?_insert {ω : Type*} [DecidableEq κ] [LawfulBEq κ] (t : Table κ ν) (k : κ) (v : ν)
    (see : ν → ω) :
    (fun other => ((t.insert k v).get? other).map see) =
      Function.update (fun other => (t.get? other).map see) k (some (see v)) := by
  rw [get?_insert]
  exact Function.comp_update (Option.map see) t.get? k (some v)

/-- What is seen of the values, after one was taken out. -/
theorem map_get?_erase {ω : Type*} [DecidableEq κ] [LawfulBEq κ] (t : Table κ ν) (k : κ)
    (see : ν → ω) :
    (fun other => ((t.erase k).get? other).map see) =
      Function.update (fun other => (t.get? other).map see) k none := by
  rw [get?_erase]
  exact Function.comp_update (Option.map see) t.get? k none

/-- Of rows that are written one after another, the last with a key gives its value; a key that none
of them has keeps the value it had. -/
theorem get?_insertAll [LawfulBEq κ] (t : Table κ ν) (rows : List (κ × ν)) (k : κ) :
    (t.insertAll rows).get? k = (rows.reverse.lookup k).or (t.get? k) := by
  induction rows generalizing t with
  | nil => rfl
  | cons row rest ih =>
    have hfirst : (t.insert row.1 row.2).get? k = ([row].lookup k).or (t.get? k) := by
      by_cases hkey : k = row.1
      · subst hkey
        rw [get?_insert_self, List.lookup_cons, BEq.rfl]
        rfl
      · rw [get?_insert_other _ (beq_eq_false_iff_ne.2 (Ne.symm hkey)), List.lookup_cons,
          beq_eq_false_iff_ne.2 hkey]
        rfl
    calc ((t.insert row.1 row.2).insertAll rest).get? k
        = (rest.reverse.lookup k).or ((t.insert row.1 row.2).get? k) := ih _
      _ = ((row :: rest).reverse.lookup k).or (t.get? k) := by
          rw [hfirst, List.reverse_cons, List.lookup_append, Option.or_assoc]

/-- No key is in a table twice. -/
theorem nodup_keys [LawfulBEq κ] (t : Table κ ν) : t.keys.Nodup := by
  refine List.pairwise_map.2 (t.distinct.imp fun h => ?_)
  exact beq_eq_false_iff_ne.1 h

/-- The keys of a table are those that it contains. -/
theorem mem_keys_iff [LawfulBEq κ] (t : Table κ ν) (k : κ) : k ∈ t.keys ↔ t.contains k = true := by
  rw [keys, List.mem_map, contains, List.any_eq_true]
  constructor
  · rintro ⟨row, hrow, rfl⟩
    exact ⟨row, hrow, BEq.rfl⟩
  · rintro ⟨row, hrow, hk⟩
    exact ⟨row, hrow, eq_of_beq hk⟩

/-- An altered key stays where it was, or comes behind the others. -/
private theorem fst_alterRows (k : κ) (f : Option ν → ν) (rows : List (κ × ν)) :
    (alterRows k f rows).map Prod.fst =
      if (rows.any (·.1 == k)) = true then rows.map Prod.fst else rows.map Prod.fst ++ [k] := by
  induction rows with
  | nil => rfl
  | cons row rest ih =>
    unfold alterRows
    by_cases hkey : (row.1 == k) = true
    · simp [hkey]
    · simp only [hkey, if_false, List.map_cons, ih, List.any_cons, Bool.false_or,
        Bool.false_eq_true]
      split <;> rfl

/-- Altering a key keeps the keys in their order; a key without a row is put behind them. -/
theorem keys_alter (t : Table κ ν) (k : κ) (f : Option ν → ν) :
    (t.alter k f).keys = if t.contains k = true then t.keys else t.keys ++ [k] :=
  fst_alterRows k f t.rows

/-- A row that no other row agrees with is found by its key, however the rows are walked. -/
private theorem find?_filterMap [EquivBEq κ] {f : κ → ν → Option μ}
    (hf : ∀ k k' v, (k == k') = true → f k v = f k' v) (k : κ) {rows : List (κ × ν)}
    (hd : rows.Pairwise fun a b => (a.1 == b.1) = false) :
    ((rows.filterMap fun row => (f row.1 row.2).map fun v => (row.1, v)).find?
        (·.1 == k)).map (·.2) =
      ((rows.find? (·.1 == k)).map (·.2)).bind (f k) := by
  induction rows with
  | nil => rfl
  | cons row rest ih =>
    obtain ⟨hfirst, hrest⟩ := List.pairwise_cons.1 hd
    by_cases hk : (row.1 == k) = true
    · have habsent : ∀ later ∈ rest, (later.1 == k) = false := by
        intro later hl
        rw [← BEq.congr_right hk, BEq.comm]
        exact hfirst later hl
      have hnone : ((rest.filterMap fun row => (f row.1 row.2).map fun v => (row.1, v)).find?
          (·.1 == k)) = none := by
        refine List.find?_eq_none.2 fun made hm => ?_
        obtain ⟨later, hl, hmade⟩ := List.mem_filterMap.1 hm
        obtain ⟨_, _, rfl⟩ := Option.map_eq_some_iff.1 hmade
        simp [habsent later hl]
      have hfound : (row :: rest).find? (·.1 == k) = some row := by simp [hk]
      rw [hfound, Option.map_some, Option.bind_some, ← hf row.1 k row.2 hk]
      cases hv : f row.1 row.2 with
      | none => simp [hv, hnone]
      | some v => simp [hv, hk]
    · have hskip : (row :: rest).find? (·.1 == k) = rest.find? (·.1 == k) := by simp [hk]
      rw [hskip, ← ih hrest]
      cases hv : f row.1 row.2 with
      | none => simp [hv]
      | some v => simp [hv, hk]

/-- **Asking a filtered table.**  The filter sees the key of the row, which is as good as the key
that is asked for when it respects `==`. -/
theorem get?_filterMap [EquivBEq κ] {f : κ → ν → Option μ}
    (hf : ∀ k k' v, (k == k') = true → f k v = f k' v) (t : Table κ ν) (k : κ) :
    (t.filterMap f).get? k = (t.get? k).bind (f k) :=
  find?_filterMap hf k t.distinct

/-- What is found in a table of mapped values is the mapped value. -/
theorem get?_mapValues [EquivBEq κ] {f : κ → ν → μ}
    (hf : ∀ k k' v, (k == k') = true → f k v = f k' v) (t : Table κ ν) (k : κ) :
    (t.mapValues f).get? k = (t.get? k).map (f k) := by
  have h := get?_filterMap (f := fun k v => some (f k v)) (fun k k' v hk => by rw [hf k k' v hk]) t k
  rw [mapValues, h]
  cases t.get? k <;> rfl

/-- **One row for each key.**  A number put down at every row of one key is found once if the key
has a row, and not at all otherwise. -/
theorem sum_indicator [EquivBEq κ] (t : Table κ ν) (k : κ) (n : Nat) :
    (t.rows.map fun row => if (k == row.1) = true then n else 0).sum =
      if t.contains k = true then n else 0 := by
  have hd := t.distinct
  unfold contains
  generalize t.rows = rows at hd
  induction rows with
  | nil => rfl
  | cons row rest ih =>
    obtain ⟨hfirst, hrest⟩ := List.pairwise_cons.1 hd
    rw [List.map_cons, List.sum_cons, ih hrest, List.any_cons]
    by_cases hk : (k == row.1) = true
    · have hk' : (row.1 == k) = true := BEq.symm hk
      have habsent : rest.any (·.1 == k) = false := by
        refine List.any_eq_false.2 fun later hl => ?_
        rw [← BEq.congr_right hk', BEq.comm, hfirst later hl]
        exact Bool.false_ne_true
      simp [hk, hk', habsent]
    · have hk' : (row.1 == k) = false := by
        rw [BEq.comm]
        exact Bool.eq_false_iff.2 hk
      rw [if_neg hk, hk', Bool.false_or, Nat.zero_add]

/-- The amounts of the rows whose key is selected, added up. -/
def sumOver (t : Table κ ν) (selects : κ → Bool) (amount : ν → Nat) : Nat :=
  ((t.rows.filter fun row => selects row.1).map fun row => amount row.2).sum

/-- The induction finds the row of the key, or puts it at the end. -/
private theorem sum_alterRows {k : κ} {f : Option ν → ν} {selects : κ → Bool}
    (hselects : ∀ k k', (k == k') = true → selects k = selects k') {amount : ν → Nat} {n : Nat}
    {rows : List (κ × ν)}
    (h : amount (f ((rows.find? (·.1 == k)).map (·.2))) =
      (((rows.find? (·.1 == k)).map (·.2)).map amount).getD 0 + n) :
    (((alterRows k f rows).filter fun row => selects row.1).map fun row => amount row.2).sum =
      ((rows.filter fun row => selects row.1).map fun row => amount row.2).sum +
        if selects k = true then n else 0 := by
  induction rows with
  | nil =>
    have hnew : amount (f none) = n := h.trans (Nat.zero_add n)
    by_cases hsel : selects k = true
    · simp [alterRows, hsel, hnew]
    · simp [alterRows, hsel]
  | cons row rest ih =>
    unfold alterRows
    by_cases hkey : (row.1 == k) = true
    · have hfound : (row :: rest).find? (·.1 == k) = some row := by simp [hkey]
      have hchanged : amount (f (some row.2)) = amount row.2 + n := by
        rw [hfound] at h
        exact h
      rw [if_pos hkey]
      by_cases hsel : selects k = true
      · simp [hselects _ _ hkey, hsel, hchanged]
        omega
      · simp [hselects _ _ hkey, hsel]
    · have hskip : (row :: rest).find? (·.1 == k) = rest.find? (·.1 == k) := by simp [hkey]
      rw [hskip] at h
      rw [if_neg hkey]
      by_cases hsel : selects row.1 = true
      · simp only [List.filter_cons, hsel, if_true, List.map_cons, List.sum_cons, ih h]
        omega
      · simp only [List.filter_cons, hsel, if_false, ih h, Bool.false_eq_true]

/-- **Altering one key changes a sum by what it changes the amount of that key.** -/
theorem sumOver_alter (t : Table κ ν) {k : κ} {f : Option ν → ν} {selects : κ → Bool}
    (hselects : ∀ k k', (k == k') = true → selects k = selects k') {amount : ν → Nat} {n : Nat}
    (h : amount (f (t.get? k)) = ((t.get? k).map amount).getD 0 + n) :
    (t.alter k f).sumOver selects amount =
      t.sumOver selects amount + if selects k = true then n else 0 :=
  sum_alterRows hselects h

end Wiretap.Table
