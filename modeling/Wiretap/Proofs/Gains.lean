import Wiretap.Spy
import Wiretap.Proofs.Lookup
/-!
# What counters gain in a window

A call adds to the counter of one key.  A window sees the counters twice, at its beginning and now,
and shows for each key the difference.  This file says that as long as no counter reaches `2 ^ 64`
the differences are the calls again: nothing that was counted before shows, and nothing that was
counted since is lost or counted twice.

* `reading_countAll` — a counter reads what it read before and what was added to it, wrapped;
* `get?_gains_countAll` — in the window a key has what was added to it, and no row if nothing was;
* `sum_gains` — the rows of the window that a question selects add up to the increments whose key
  it selects.  The rows are as many as there are keys, the increments as many as there were calls,
  so this is where the two are exchanged.
-/

namespace Wiretap

/-- The quantities that are counted. -/
inductive Stats.Field where
  | elapsed
  | sent
  | received
  | rows
  | operations
  deriving DecidableEq, Repr

/-- Natural numbers for the quantities: what something adds to a counter. -/
abbrev Gain := Stats.Field → Nat

namespace Stats

/-- One of the quantities. -/
def get (s : Stats) : Field → UInt64
  | .elapsed => s.elapsed
  | .sent => s.sent
  | .received => s.received
  | .rows => s.rows
  | .operations => s.operations

/-- The words of a gain. -/
def ofGain (g : Gain) : Stats where
  elapsed := .ofNat (g .elapsed)
  sent := .ofNat (g .sent)
  received := .ofNat (g .received)
  rows := .ofNat (g .rows)
  operations := .ofNat (g .operations)

/-- Counters are equal if all their fields are. -/
theorem ext_get {a b : Stats} (h : ∀ x, a.get x = b.get x) : a = b := by
  obtain ⟨_, _, _, _, _⟩ := a
  obtain ⟨_, _, _, _, _⟩ := b
  rw [Stats.mk.injEq]
  exact ⟨h .elapsed, h .sent, h .received, h .rows, h .operations⟩

@[simp] theorem get_zero (x : Field) : zero.get x = 0 := by
  cases x <;> rfl

@[simp] theorem get_ofGain (g : Gain) (x : Field) : (ofGain g).get x = .ofNat (g x) := by
  cases x <;> rfl

/-- A gain that fits into a word is counted in full. -/
theorem toNat_get_ofGain {g : Gain} {x : Field} (h : g x < 2 ^ 64) :
    ((ofGain g).get x).toNat = g x := by
  rw [get_ofGain]
  exact UInt64.toNat_ofNat_of_lt' h

/-- What counts an operation is not nothing. -/
theorem not_isZero_ofGain {g : Gain} (hone : 1 ≤ g .operations) (hlt : g .operations < 2 ^ 64) :
    ¬ (ofGain g).isZero = true := by
  intro hzero
  have hget := toNat_get_ofGain hlt
  rw [(isZero_iff _).1 hzero, get_zero, UInt64.toNat_zero] at hget
  omega

/-- A delta is added field by field, and wraps. -/
theorem get_accumulate (counter delta : Stats) (x : Field) :
    (counter.accumulate delta).get x = counter.get x + delta.get x := by
  cases x <;> rfl

/-- Counters are added field by field, up to the greatest. -/
theorem get_plus (a b : Stats) (x : Field) : (a.plus b).get x = cappedAdd (a.get x) (b.get x) := by
  cases x <;> rfl

/-- A counter that only rose shows by how much. -/
theorem since_eq_of_get {now before gain : Stats}
    (h : ∀ x, (now.get x).toNat = (before.get x).toNat + (gain.get x).toNat) :
    now.since before = gain := by
  have helapsed := since?_eq_some.2 (h .elapsed)
  have hsent := since?_eq_some.2 (h .sent)
  have hreceived := since?_eq_some.2 (h .received)
  have hrows := since?_eq_some.2 (h .rows)
  have hoperations := since?_eq_some.2 (h .operations)
  simp only [get] at helapsed hsent hreceived hrows hoperations
  rw [since, gain?, helapsed, hsent, hreceived, hrows, hoperations]
  rfl

end Stats

/-- What one call adds to the counter of a key. -/
structure Increment (κ : Type u) where
  key : κ
  gain : Gain

namespace Increment

variable {κ : Type u} [BEq κ]

/-- What increments add to the counter of `k`. -/
def total (increments : List (Increment κ)) (k : κ) : Gain := fun x =>
  ((increments.filter fun i => i.key == k).map fun i => i.gain x).sum

@[simp] theorem total_nil (k : κ) (x : Stats.Field) : total [] k x = 0 := rfl

theorem total_cons (i : Increment κ) (rest : List (Increment κ)) (k : κ) (x : Stats.Field) :
    total (i :: rest) k x = (if (i.key == k) = true then i.gain x else 0) + total rest k x := by
  by_cases h : (i.key == k) = true
  · simp [total, h]
  · simp [total, h]

/-- What goes to one counter is no more than all that is added. -/
theorem total_le_sum (increments : List (Increment κ)) (k : κ) (x : Stats.Field) :
    total increments k x ≤ (increments.map fun i => i.gain x).sum := by
  induction increments with
  | nil => exact Nat.le_refl 0
  | cons i rest ih =>
    rw [total_cons, List.map_cons, List.sum_cons]
    by_cases hk : (i.key == k) = true
    · rw [if_pos hk]
      omega
    · rw [if_neg hk]
      omega

/-- No increment is more than all of them together. -/
theorem gain_le_total {increments : List (Increment κ)} {i : Increment κ} (h : i ∈ increments)
    {k : κ} (hk : (i.key == k) = true) (x : Stats.Field) : i.gain x ≤ total increments k x := by
  induction increments with
  | nil => cases h
  | cons j rest ih =>
    rw [total_cons]
    rcases List.mem_cons.1 h with rfl | h
    · rw [if_pos hk]
      omega
    · have hrest := ih h
      omega

/-- Every increment is one operation. -/
def EachOnce (increments : List (Increment κ)) : Prop :=
  ∀ i ∈ increments, i.gain .operations = 1

/-- Where each increment counts one operation, a key that is incremented has at least one. -/
theorem one_le_total {increments : List (Increment κ)} (honce : EachOnce increments) {k : κ}
    (hany : (increments.any fun i => i.key == k) = true) :
    1 ≤ total increments k .operations := by
  obtain ⟨i, hi, hik⟩ := List.any_eq_true.1 hany
  rw [← honce i hi]
  exact gain_le_total hi hik .operations

/-- A key that is not incremented gains nothing. -/
theorem total_eq_zero {increments : List (Increment κ)} {k : κ}
    (hnone : ¬ (increments.any fun i => i.key == k) = true) :
    total increments k = fun _ => 0 := by
  funext x
  have hempty : increments.filter (fun i => i.key == k) = [] := by
    refine List.filter_eq_nil_iff.2 fun i hi hik => hnone ?_
    exact List.any_eq_true.2 ⟨i, hi, hik⟩
  rw [total, hempty]
  rfl

end Increment

namespace Ledger

variable {κ : Type u} [BEq κ]

/-- The counters after increments one after another. -/
def countAll (counters : Table κ Stats) (increments : List (Increment κ)) : Table κ Stats :=
  increments.foldl (fun counters i => count counters i.key (.ofGain i.gain)) counters

/-- What the counter of a key reads; zero where the key has none. -/
def reading (counters : Table κ Stats) (k : κ) (x : Stats.Field) : UInt64 :=
  ((counters.get? k).getD .zero).get x

/-- No counter reaches `2 ^ 64` by the increments. -/
def Fits (counters : Table κ Stats) (increments : List (Increment κ)) : Prop :=
  ∀ k x, (reading counters k x).toNat + Increment.total increments k x < 2 ^ 64

/-- Increments may be counted in two parts. -/
theorem countAll_append (counters : Table κ Stats) (first second : List (Increment κ)) :
    countAll counters (first ++ second) = countAll (countAll counters first) second :=
  List.foldl_append

variable [EquivBEq κ]

/-- An increment adds its gain to the reading of its key, and nothing to another. -/
theorem reading_count (counters : Table κ Stats) (i : Increment κ) (k : κ) (x : Stats.Field) :
    reading (count counters i.key (.ofGain i.gain)) k x =
      reading counters k x + if (i.key == k) = true then .ofNat (i.gain x) else 0 := by
  unfold reading count
  by_cases hk : (i.key == k) = true
  · rw [← Table.get?_congr _ hk, Table.get?_alter_self, if_pos hk, ← Table.get?_congr _ hk,
      Option.getD_some, Stats.get_accumulate, Stats.get_ofGain]
  · rw [Table.get?_alter_other _ (Bool.eq_false_iff.2 hk), if_neg hk, UInt64.add_zero]

/-- **A counter reads what was added to it,** on top of what it read before. -/
theorem reading_countAll (counters : Table κ Stats) (increments : List (Increment κ)) (k : κ)
    (x : Stats.Field) :
    reading (countAll counters increments) k x =
      reading counters k x + .ofNat (Increment.total increments k x) := by
  induction increments generalizing counters with
  | nil => exact (UInt64.add_zero _).symm
  | cons i rest ih =>
    have hstep : countAll counters (i :: rest) =
        countAll (count counters i.key (.ofGain i.gain)) rest := rfl
    rw [hstep, ih, reading_count, Increment.total_cons]
    by_cases hk : (i.key == k) = true
    · rw [if_pos hk, if_pos hk, UInt64.ofNat_add, UInt64.add_assoc]
    · rw [if_neg hk, if_neg hk, UInt64.add_zero, Nat.zero_add]

/-- An increment leaves a counter at its key. -/
theorem contains_count (counters : Table κ Stats) (i : Increment κ) (k : κ) :
    (count counters i.key (.ofGain i.gain)).contains k = (counters.contains k || i.key == k) := by
  unfold count
  rw [Table.contains_eq_isSome, Table.contains_eq_isSome]
  by_cases hk : (i.key == k) = true
  · rw [← Table.get?_congr _ hk, Table.get?_alter_self, hk]
    simp
  · have hk' : (i.key == k) = false := Bool.eq_false_iff.2 hk
    rw [Table.get?_alter_other _ hk', hk', Bool.or_false]

/-- A key has a counter if it had one or something was added to it. -/
theorem contains_countAll (counters : Table κ Stats) (increments : List (Increment κ)) (k : κ) :
    (countAll counters increments).contains k =
      (counters.contains k || increments.any fun i => i.key == k) := by
  induction increments generalizing counters with
  | nil => simp [countAll]
  | cons i rest ih =>
    have hstep : countAll counters (i :: rest) =
        countAll (count counters i.key (.ofGain i.gain)) rest := rfl
    rw [hstep, ih, contains_count, List.any_cons, Bool.or_assoc]

/-- As long as nothing wraps, a counter reads the plain sum. -/
theorem toNat_reading_countAll {counters : Table κ Stats} {increments : List (Increment κ)}
    (hfits : Fits counters increments) (k : κ) (x : Stats.Field) :
    (reading (countAll counters increments) k x).toNat =
      (reading counters k x).toNat + Increment.total increments k x := by
  have hlt := hfits k x
  have htotal : Increment.total increments k x < 2 ^ 64 := by omega
  rw [reading_countAll, UInt64.toNat_add, UInt64.toNat_ofNat_of_lt' htotal, Nat.mod_eq_of_lt hlt]

/-- Where counting began with no counters, nothing wraps as long as all that was ever added does
not come to `2 ^ 64`. -/
theorem fits_of_sum_lt {first second : List (Increment κ)}
    (h : ∀ x, ((first ++ second).map fun i => i.gain x).sum < 2 ^ 64) :
    Fits (countAll .empty first) second := by
  intro k x
  have hsum := h x
  rw [List.map_append, List.sum_append] at hsum
  have hfirst := Increment.total_le_sum first k x
  have hsecond := Increment.total_le_sum second k x
  have hempty : reading (Table.empty : Table κ Stats) k x = 0 := by
    rw [reading, Table.get?_empty, Option.getD_none, Stats.get_zero]
  have hlt : Increment.total first k x < 2 ^ 64 := by omega
  have hreading : (reading (countAll .empty first) k x).toNat = Increment.total first k x := by
    rw [reading_countAll, hempty, UInt64.zero_add]
    exact UInt64.toNat_ofNat_of_lt' hlt
  omega

end Ledger

namespace Baseline

open Ledger Increment

variable {κ : Type u} [BEq κ] [EquivBEq κ]

/-- What a window shows of a counter that now reads `now`. -/
def rise (before : Table κ Stats) (k : κ) (now : Stats) : Stats :=
  match before.get? k with
  | some earlier => now.since earlier
  | none => now

/-- The gain of a key is what its counter rose by, if that is anything. -/
theorem get?_gains (now before : Table κ Stats) (k : κ) :
    (gains now before).get? k = (now.get? k).bind fun s =>
      if (rise before k s).isZero then none else some (rise before k s) := by
  have hrows : gains now before = now.filterMap fun k s =>
      if (rise before k s).isZero then none else some (rise before k s) := rfl
  rw [hrows]
  refine Table.get?_filterMap (fun k k' s hk => ?_) now k
  have hrise : rise before k s = rise before k' s := by
    rw [rise, rise, before.get?_congr hk]
  rw [hrise]

/-- A window shows of a counter what was added to it, whether there was a counter before or not. -/
theorem rise_countAll {counters : Table κ Stats} {increments : List (Increment κ)}
    (hfits : Fits counters increments) {k : κ} {s : Stats}
    (hs : (countAll counters increments).get? k = some s) :
    rise counters k s = .ofGain (Increment.total increments k) := by
  have hreading : ∀ x, (s.get x).toNat = (reading counters k x).toNat +
      ((Stats.ofGain (Increment.total increments k)).get x).toNat := by
    intro x
    have hlt := hfits k x
    have hnow : s.get x = reading (countAll counters increments) k x := by
      simp only [reading, hs, Option.getD_some]
    rw [hnow, toNat_reading_countAll hfits k x, Stats.toNat_get_ofGain (by omega)]
  unfold rise
  cases hbefore : counters.get? k with
  | some earlier =>
    refine Stats.since_eq_of_get fun x => ?_
    rw [hreading x]
    simp only [reading, hbefore, Option.getD_some]
  | none =>
    refine Stats.ext_get fun x => UInt64.toNat_inj.1 ?_
    rw [hreading x]
    simp [reading, hbefore]

/-- **The window of one key.**  Nothing is shown for a key that nothing was added to, and what was
added, for any other. -/
theorem get?_gains_countAll {counters : Table κ Stats} {increments : List (Increment κ)}
    (hfits : Fits counters increments) (honce : EachOnce increments) (k : κ) :
    (gains (countAll counters increments) counters).get? k =
      if (increments.any fun i => i.key == k) = true then
        some (.ofGain (Increment.total increments k))
      else none := by
  rw [get?_gains]
  cases hs : (countAll counters increments).get? k with
  | none =>
    have hcontains := contains_countAll counters increments k
    rw [Table.contains_eq_isSome, hs, Option.isSome_none, eq_comm, Bool.or_eq_false_iff]
      at hcontains
    rw [hcontains.2]
    rfl
  | some s =>
    rw [Option.bind_some, rise_countAll hfits hs]
    by_cases hany : (increments.any fun i => i.key == k) = true
    · have hlt := hfits k .operations
      have hnonzero : ¬ (Stats.ofGain (Increment.total increments k)).isZero = true :=
        Stats.not_isZero_ofGain (one_le_total honce hany) (by omega)
      rw [if_pos hany, if_neg hnonzero]
    · have hzero : (Stats.ofGain (Increment.total increments k)).isZero = true := by
        rw [total_eq_zero hany]
        rfl
      rw [if_neg hany, if_pos hzero]

/-- A row of a window holds what was added to its key, and that is at least one operation. -/
theorem row_gains_countAll {counters : Table κ Stats} {increments : List (Increment κ)}
    (hfits : Fits counters increments) (honce : EachOnce increments) {row : κ × Stats}
    (hrow : row ∈ (gains (countAll counters increments) counters).rows) :
    (∀ x, (row.2.get x).toNat = Increment.total increments row.1 x) ∧
      1 ≤ Increment.total increments row.1 .operations := by
  have hget := Table.get?_of_mem_rows hrow
  rw [get?_gains_countAll hfits honce] at hget
  by_cases hany : (increments.any fun i => i.key == row.1) = true
  · rw [if_pos hany, Option.some.injEq] at hget
    refine ⟨fun x => ?_, one_le_total honce hany⟩
    have hlt := hfits row.1 x
    rw [← hget, Stats.toNat_get_ofGain (by omega)]
  · rw [if_neg hany] at hget
    cases hget

/-- No row of a window is left out for having counted nothing. -/
theorem filter_counted {counters : Table κ Stats} {increments : List (Increment κ)}
    (hfits : Fits counters increments) (honce : EachOnce increments) (keep : κ → Bool) :
    ((gains (countAll counters increments) counters).rows.filter fun row =>
        row.2.operations != 0 && keep row.1) =
      (gains (countAll counters increments) counters).rows.filter fun row => keep row.1 := by
  refine List.filter_congr fun row hrow => ?_
  obtain ⟨hget, hone⟩ := row_gains_countAll hfits honce hrow
  have hoperations : (row.2.operations != 0) = true := by
    rw [bne_iff_ne]
    intro hzero
    have h : row.2.operations.toNat = Increment.total increments row.1 .operations :=
      hget .operations
    rw [hzero, UInt64.toNat_zero] at h
    omega
  rw [hoperations, Bool.true_and]

/-- A sum over the selected rows is a sum over all rows in which the others count for nothing. -/
theorem sum_filter_eq {α : Type v} (p : α → Bool) (f : α → Nat) (l : List α) :
    ((l.filter p).map f).sum = (l.map fun a => if p a = true then f a else 0).sum := by
  induction l with
  | nil => rfl
  | cons a rest ih =>
    by_cases h : p a = true
    · simp [h, ih]
    · simp [h, ih]

/-- **Exchange.**  Let every increment have its row.  Then adding, over the selected rows, what was
added to each is adding the increments whose key is selected.  The induction is on the increments:
one of them spreads over the rows and comes together at its own. -/
theorem sum_total_rows {ν : Type v} (table : Table κ ν) {p : κ → Bool}
    (hp : ∀ k k', (k == k') = true → p k = p k') (x : Stats.Field)
    {increments : List (Increment κ)} (hrows : ∀ i ∈ increments, table.contains i.key = true) :
    ((table.rows.filter fun row => p row.1).map fun row =>
        Increment.total increments row.1 x).sum =
      ((increments.filter fun i => p i.key).map fun i => i.gain x).sum := by
  rw [sum_filter_eq, sum_filter_eq]
  induction increments with
  | nil => simp
  | cons i rest ih =>
    have hspread : ∀ row : κ × ν,
        (if p row.1 = true then Increment.total (i :: rest) row.1 x else 0) =
          (if (i.key == row.1) = true then (if p i.key = true then i.gain x else 0) else 0) +
            if p row.1 = true then Increment.total rest row.1 x else 0 := by
      intro row
      rw [Increment.total_cons]
      by_cases hk : (i.key == row.1) = true
      · rw [hp _ _ hk, if_pos hk, if_pos hk]
        by_cases hsel : p row.1 = true
        · rw [if_pos hsel, if_pos hsel, if_pos hsel]
        · rw [if_neg hsel, if_neg hsel, if_neg hsel]
      · rw [if_neg hk, if_neg hk, Nat.zero_add, Nat.zero_add]
    have hrest := ih fun j hj => hrows j (List.mem_cons_of_mem _ hj)
    have hown := hrows i List.mem_cons_self
    simp only [hspread, List.sum_map_add]
    rw [Table.sum_indicator, hown, if_pos rfl, hrest, List.map_cons, List.sum_cons]

/-- The keys that gain are those that were incremented. -/
theorem contains_gains {counters : Table κ Stats} {increments : List (Increment κ)}
    (hfits : Fits counters increments) (honce : EachOnce increments) (k : κ) :
    (gains (countAll counters increments) counters).contains k =
      increments.any fun i => i.key == k := by
  rw [Table.contains_eq_isSome, get?_gains_countAll hfits honce]
  cases increments.any fun i => i.key == k <;> rfl

/-- **The window shows who called.**  A question selects a row by its key if and only if it selects
the key of an increment. -/
theorem any_gains {counters : Table κ Stats} {increments : List (Increment κ)}
    (hfits : Fits counters increments) (honce : EachOnce increments) {p : κ → Bool}
    (hp : ∀ k k', (k == k') = true → p k = p k') :
    ((gains (countAll counters increments) counters).rows.any fun row => p row.1) =
      increments.any fun i => p i.key := by
  rw [Bool.eq_iff_iff, List.any_eq_true, List.any_eq_true]
  constructor
  · rintro ⟨row, hrow, hpr⟩
    have hcontains : (gains (countAll counters increments) counters).contains row.1 = true :=
      List.any_eq_true.2 ⟨row, hrow, BEq.rfl⟩
    rw [contains_gains hfits honce] at hcontains
    obtain ⟨i, hi, hik⟩ := List.any_eq_true.1 hcontains
    exact ⟨i, hi, (hp _ _ hik).trans hpr⟩
  · rintro ⟨i, hi, hpi⟩
    have hany : (increments.any fun j => j.key == i.key) = true :=
      List.any_eq_true.2 ⟨i, hi, BEq.rfl⟩
    rw [← contains_gains hfits honce] at hany
    obtain ⟨row, hrow, hrk⟩ := List.any_eq_true.1 hany
    exact ⟨row, hrow, (hp _ _ hrk).trans hpi⟩

/-- **The window adds up to the calls.**  Over the rows that a question selects by their key, a
quantity adds up to what the calls with a selected key added. -/
theorem sum_gains {counters : Table κ Stats} {increments : List (Increment κ)}
    (hfits : Fits counters increments) (honce : EachOnce increments) {p : κ → Bool}
    (hp : ∀ k k', (k == k') = true → p k = p k') (x : Stats.Field) :
    (((gains (countAll counters increments) counters).rows.filter fun row => p row.1).map
        fun row => (row.2.get x).toNat).sum =
      ((increments.filter fun i => p i.key).map fun i => i.gain x).sum := by
  have hrows : ∀ i ∈ increments,
      (gains (countAll counters increments) counters).contains i.key = true := by
    intro i hi
    rw [contains_gains hfits honce]
    exact List.any_eq_true.2 ⟨i, hi, BEq.rfl⟩
  rw [← sum_total_rows _ hp x hrows]
  refine congrArg List.sum (List.map_congr_left fun row hrow => ?_)
  exact (row_gains_countAll hfits honce (List.mem_of_mem_filter hrow)).1 x

end Baseline

/-- A sum of words is the word of the sum of their numbers. -/
theorem sum_words (words : List UInt64) :
    sumWords words = .ofNat (words.map UInt64.toNat).sum := by
  induction words with
  | nil => rfl
  | cons w rest ih =>
    rw [List.map_cons, List.sum_cons, UInt64.ofNat_add, ← ih, UInt64.ofNat_toNat]
    rfl

/-- A sum of words is the sum of their numbers, as long as that does not wrap. -/
theorem toNat_sum_words {words : List UInt64}
    (h : (words.map UInt64.toNat).sum < 2 ^ 64) :
    (sumWords words).toNat = (words.map UInt64.toNat).sum := by
  rw [sum_words]
  exact UInt64.toNat_ofNat_of_lt' h

end Wiretap
