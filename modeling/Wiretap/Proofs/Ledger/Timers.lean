import Mathlib.Data.List.DropRight
import Wiretap.Ledger
import Wiretap.Proofs.Listing
/-!
# The texts that are timed

A ledger times the texts of statements, but only so many of them.  Whether there is room is asked
when a text comes that is not timed yet; a timed text is timed on, also when the table is full.  So
the table never has to give up a text, and a text that found no room once finds none later either,
until the ledger is cleared.

* The **executions** of a history are its recorded statements since it was last cleared.
* `Ledger.Times` says what the table holds: the first different texts of the executions, and for
  each of them all its executions, also those after the table was full.
* One execution keeps this (`Times.time`), everything else that is done to a ledger leaves the table
  alone, and so it holds of every history.

`timers_of_history` puts this together with the order in which the table is shown.
-/

namespace Wiretap

/-- What is done to a ledger. -/
inductive LedgerOp where
  | recordSocket (id : ConnectionId) (delta : Stats)
  | recordStatement (id : StatementId) (delta : Stats)
  | append (id : ConnectionId) (chunk : Chunk)
  | flush (id : ConnectionId)
  | nextOrdinal (address : Address)
  | intern (text : String)
  | clear

/-- One execution of a statement: its text, and how long it ran. -/
structure Execution where
  sql : String
  nanos : UInt64
  deriving DecidableEq, Repr

namespace LedgerOp

/-- Whether the ledger is cleared. -/
def isClear : LedgerOp → Bool
  | clear => true
  | _ => false

/-- The execution that is recorded, if one is. -/
def execution? : LedgerOp → Option Execution
  | recordStatement id delta => some ⟨id.sql, delta.elapsed⟩
  | _ => none

/-- The operations after the last time that the ledger was cleared. -/
def sinceClear (ops : List LedgerOp) : List LedgerOp :=
  ops.rtakeWhile fun op => !op.isClear

theorem sinceClear_concat_clear (ops : List LedgerOp) : sinceClear (ops ++ [clear]) = [] := by
  rw [sinceClear, List.rtakeWhile_concat_neg _ _ _ (by simp [isClear])]

/-- An operation that clears nothing is one more since the last clearing. -/
theorem sinceClear_concat {op : LedgerOp} (h : op.isClear = false) (ops : List LedgerOp) :
    sinceClear (ops ++ [op]) = sinceClear ops ++ [op] := by
  rw [sinceClear, List.rtakeWhile_concat_pos _ _ _ (by simp [h]), sinceClear]

/-- A later part without a clearing goes on from the earlier part. -/
theorem sinceClear_append {later : List LedgerOp} (h : ∀ op ∈ later, op.isClear = false)
    (earlier : List LedgerOp) : sinceClear (earlier ++ later) = sinceClear earlier ++ later := by
  induction later using List.reverseRecOn with
  | nil => rw [List.append_nil, List.append_nil]
  | append_singleton later op ih =>
    have hop : op.isClear = false := h op List.mem_concat_self
    have hlater := ih fun other hother => h other (List.mem_append_left _ hother)
    rw [← List.append_assoc, sinceClear_concat hop, hlater, List.append_assoc]

/-- What the operations since the ledger was last cleared recorded, of one kind. -/
def recorded {α : Type u} (what? : LedgerOp → Option α) (ops : List LedgerOp) : List α :=
  (sinceClear ops).filterMap what?

section Recorded

variable {α : Type u} (what? : LedgerOp → Option α)

theorem recorded_concat_clear (ops : List LedgerOp) : recorded what? (ops ++ [clear]) = [] := by
  rw [recorded, sinceClear_concat_clear, List.filterMap_nil]

/-- One more operation is recorded behind the others, if it is of the kind. -/
theorem recorded_concat {op : LedgerOp} (h : op.isClear = false) (ops : List LedgerOp) :
    recorded what? (ops ++ [op]) = recorded what? ops ++ (what? op).toList := by
  rw [recorded, sinceClear_concat h, List.filterMap_append, recorded]
  cases hop : what? op <;> simp [hop]

/-- The order in which a later part without a clearing comes shows in the order of what is recorded
only. -/
theorem recorded_append_perm {one other : List LedgerOp} (hperm : one.Perm other)
    (hclear : ∀ op ∈ one, op.isClear = false) (before : List LedgerOp) :
    (recorded what? (before ++ one)).Perm (recorded what? (before ++ other)) := by
  have hclear' : ∀ op ∈ other, op.isClear = false := fun op hop => hclear op (hperm.mem_iff.2 hop)
  rw [recorded, recorded, sinceClear_append hclear, sinceClear_append hclear']
  exact (hperm.append_left _).filterMap _

end Recorded

/-- The executions since the ledger was last cleared. -/
def executions (ops : List LedgerOp) : List Execution := recorded execution? ops

end LedgerOp

namespace Execution

/-- The different texts of executions, in the order in which they came. -/
def texts (runs : List Execution) : List String := (runs.map sql).eraseDups

/-- How long the executions of one text ran. -/
def times (runs : List Execution) (sql : String) : List UInt64 :=
  (runs.filter fun run => run.sql == sql).map nanos

/-- The texts are those of some execution. -/
theorem mem_texts {runs : List Execution} {sql : String} :
    sql ∈ texts runs ↔ ∃ run ∈ runs, run.sql = sql := by
  rw [texts, List.mem_eraseDups, List.mem_map]

/-- A text that came before is not new; a new one is put behind the others. -/
theorem texts_concat (runs : List Execution) (run : Execution) :
    texts (runs ++ [run]) =
      if run.sql ∈ texts runs then texts runs else texts runs ++ [run.sql] := by
  have hmem : run.sql ∈ runs.map sql ↔ run.sql ∈ texts runs := List.mem_eraseDups.symm
  rw [texts, List.map_append, List.map_singleton, eraseDups_concat]
  simp only [hmem]
  rfl

/-- A text that was not run has no times. -/
theorem times_eq_nil {runs : List Execution} {sql : String} (h : sql ∉ texts runs) :
    times runs sql = [] := by
  rw [times, List.map_eq_nil_iff, List.filter_eq_nil_iff]
  intro run hrun hsql
  exact h (mem_texts.2 ⟨run, hrun, eq_of_beq hsql⟩)

/-- One more execution of a text is one more time of it. -/
theorem times_concat_self (runs : List Execution) (run : Execution) :
    times (runs ++ [run]) run.sql = times runs run.sql ++ [run.nanos] := by
  simp [times]

/-- It is no time of another text. -/
theorem times_concat_other {run : Execution} {sql : String} (h : run.sql ≠ sql)
    (runs : List Execution) : times (runs ++ [run]) sql = times runs sql := by
  simp [times, h]

end Execution

namespace SqlTimer

/-- The timer has noted just these running times.  It counts and adds with words, so both may have
wrapped; the longest is one of them. -/
structure Noted (t : SqlTimer) (times : List UInt64) : Prop where
  executions : t.executions.toNat = times.length % 2 ^ 64
  total : t.total.toNat = (times.map UInt64.toNat).sum % 2 ^ 64
  longest_mem : t.longest ∈ times
  le_longest : ∀ nanos ∈ times, nanos ≤ t.longest

/-- The longest time is the new one, if it is not shorter. -/
theorem longest_note (t : SqlTimer) (nanos : UInt64) :
    (t.note nanos).longest = if t.longest ≤ nanos then nanos else t.longest := rfl

/-- The first time that a timer notes. -/
theorem noted_first (nanos : UInt64) : (({} : SqlTimer).note nanos).Noted [nanos] := by
  have hlongest : (({} : SqlTimer).note nanos).longest = nanos := by
    rw [longest_note, if_pos]
    exact UInt64.zero_le
  refine ⟨rfl, ?_, ?_, ?_⟩
  · simp [note]
  · simp [hlongest]
  · simp [hlongest]

/-- One more time. -/
theorem Noted.note {t : SqlTimer} {times : List UInt64} (h : t.Noted times) (nanos : UInt64) :
    (t.note nanos).Noted (times ++ [nanos]) where
  executions := by
    simp only [SqlTimer.note, UInt64.toNat_add, h.executions, List.length_append,
      List.length_singleton, UInt64.toNat_one, Nat.mod_add_mod]
  total := by
    simp only [SqlTimer.note, UInt64.toNat_add, h.total, List.map_append, List.map_cons,
      List.map_nil, List.sum_append, List.sum_singleton, Nat.mod_add_mod]
  longest_mem := by
    rw [longest_note]
    split
    · exact List.mem_concat_self
    · exact List.mem_append_left _ h.longest_mem
  le_longest := by
    intro noted hnoted
    rw [longest_note]
    rcases List.mem_append.1 hnoted with hbefore | hlast
    · have hle := h.le_longest noted hbefore
      split
      · rename_i hnanos
        exact UInt64.le_trans hle hnanos
      · exact hle
    · rw [List.mem_singleton.1 hlast]
      split
      · exact UInt64.le_refl nanos
      · rename_i hnanos
        exact (UInt64.le_total t.longest nanos).resolve_left hnanos

end SqlTimer

namespace Ledger

section Time

variable {capacity : Nat} {timers : Table String SqlTimer} {sql : String}

/-- Where there is room for a text, its time is noted. -/
theorem time_of_room (h : timers.contains sql = true ∨ timers.size < capacity) (nanos : UInt64) :
    time capacity timers sql nanos = timers.alter sql fun timer => (timer.getD {}).note nanos := by
  rw [time, if_pos]
  simpa using h

/-- A new text for which there is no room is not timed. -/
theorem time_of_full (hnew : ¬ timers.contains sql = true) (hfull : ¬ timers.size < capacity)
    (nanos : UInt64) : time capacity timers sql nanos = timers := by
  rw [time, if_neg]
  simp [hnew, hfull]

/-- An execution of one text leaves the timers of the others alone. -/
theorem get?_time_other {other : String} (h : sql ≠ other) (nanos : UInt64) :
    (time capacity timers sql nanos).get? other = timers.get? other := by
  rw [time]
  split
  · exact Table.get?_alter_other _ (beq_eq_false_iff_ne.2 h) _
  · rfl

end Time

/-- What the table of running times holds after executions. -/
structure Times (l : Ledger) (runs : List Execution) : Prop where
  /-- The texts that came first, as many as there is room for. -/
  keys : l.timers.keys = (Execution.texts runs).take l.capacity
  /-- Every execution of such a text was noted, and no other. -/
  noted : ∀ {sql : String} {timer : SqlTimer},
    l.timers.get? sql = some timer → timer.Noted (Execution.times runs sql)

namespace Times

variable {l : Ledger} {runs : List Execution}

/-- The timed texts are the first ones, as many as there is room for. -/
theorem contains_iff (h : l.Times runs) {sql : String} :
    l.timers.contains sql = true ↔ sql ∈ (Execution.texts runs).take l.capacity := by
  rw [← h.keys, Table.mem_keys_iff]

/-- There are as many timers as there is room for, or as there are texts. -/
theorem size_eq (h : l.Times runs) :
    l.timers.size = min l.capacity (Execution.texts runs).length := by
  have hkeys : l.timers.keys.length = l.timers.size := List.length_map _
  rw [← hkeys, h.keys, List.length_take]

/-- While there is room, every text is timed. -/
theorem keys_of_room (h : l.Times runs) (hroom : l.timers.size < l.capacity) :
    l.timers.keys = Execution.texts runs := by
  have hsize := h.size_eq
  rw [h.keys, List.take_of_length_le]
  omega

/-- A full table keeps its texts, whatever comes. -/
theorem take_texts_of_full (h : l.Times runs) (hfull : ¬ l.timers.size < l.capacity)
    (run : Execution) :
    (Execution.texts (runs ++ [run])).take l.capacity =
      (Execution.texts runs).take l.capacity := by
  have hsize := h.size_eq
  rw [Execution.texts_concat]
  split
  · rfl
  · refine List.take_append_of_le_length ?_
    omega

/-- A text that is not timed while there is room never came before. -/
theorem times_eq_nil_of_room (h : l.Times runs) {sql : String}
    (hnew : ¬ l.timers.contains sql = true) (hroom : l.timers.size < l.capacity) :
    Execution.times runs sql = [] := by
  refine Execution.times_eq_nil fun hmem => hnew ?_
  rw [← Table.mem_keys_iff, h.keys_of_room hroom]
  exact hmem

/-- The timed texts stand in the order in which they came. -/
theorem keys_time (h : l.Times runs) (run : Execution) :
    (time l.capacity l.timers run.sql run.nanos).keys =
      (Execution.texts (runs ++ [run])).take l.capacity := by
  by_cases hknown : l.timers.contains run.sql = true
  · have hmem : run.sql ∈ Execution.texts runs := List.mem_of_mem_take (h.contains_iff.1 hknown)
    rw [time_of_room (.inl hknown), Table.keys_alter, if_pos hknown, Execution.texts_concat,
      if_pos hmem, h.keys]
  · by_cases hroom : l.timers.size < l.capacity
    · have hall := h.keys_of_room hroom
      have hnew : run.sql ∉ Execution.texts runs := by
        rw [← hall, Table.mem_keys_iff]
        exact hknown
      have hlength : (Execution.texts runs ++ [run.sql]).length ≤ l.capacity := by
        rw [List.length_append, ← hall, Table.keys, List.length_map]
        exact hroom
      rw [time_of_room (.inr hroom), Table.keys_alter, if_neg hknown, Execution.texts_concat,
        if_neg hnew, List.take_of_length_le hlength, hall]
    · rw [time_of_full hknown hroom, h.take_texts_of_full hroom, h.keys]

/-- Each timer notes the times of its text. -/
theorem noted_time (h : l.Times runs) (run : Execution) {sql : String} {timer : SqlTimer}
    (hget : (time l.capacity l.timers run.sql run.nanos).get? sql = some timer) :
    timer.Noted (Execution.times (runs ++ [run]) sql) := by
  by_cases hsame : run.sql = sql
  · subst hsame
    rw [Execution.times_concat_self]
    by_cases hadmitted : l.timers.contains run.sql = true ∨ l.timers.size < l.capacity
    · rw [time_of_room hadmitted, Table.get?_alter_self, Option.some.injEq] at hget
      rw [← hget]
      cases hbefore : l.timers.get? run.sql with
      | some old => exact (h.noted hbefore).note run.nanos
      | none =>
        have hnew : ¬ l.timers.contains run.sql = true := by
          simp [Table.contains_eq_isSome, hbefore]
        rw [h.times_eq_nil_of_room hnew (hadmitted.resolve_left hnew)]
        exact SqlTimer.noted_first run.nanos
    · -- the table is full, and the text is not in it
      obtain ⟨hnew, hfull⟩ := not_or.1 hadmitted
      rw [time_of_full hnew hfull] at hget
      refine absurd ?_ hnew
      rw [Table.contains_eq_isSome, hget]
      rfl
  · rw [Execution.times_concat_other hsame]
    refine h.noted ?_
    rw [← hget, get?_time_other hsame]

/-- **One more execution.** -/
theorem recordStatement (h : l.Times runs) (id : StatementId) (delta : Stats) :
    (l.recordStatement id delta).Times (runs ++ [⟨id.sql, delta.elapsed⟩]) where
  keys := h.keys_time ⟨id.sql, delta.elapsed⟩
  noted := h.noted_time ⟨id.sql, delta.elapsed⟩

/-- A ledger that times nothing yet. -/
theorem of_empty (h : l.timers = .empty) : l.Times [] where
  keys := by
    rw [h]
    exact List.take_nil.symm
  noted := by
    intro sql timer hget
    rw [h] at hget
    cases hget

/-- What leaves the table of running times alone. -/
theorem of_eq {l' : Ledger} (h : l.Times runs) (htimers : l'.timers = l.timers)
    (hcapacity : l'.capacity = l.capacity) : l'.Times runs where
  keys := by rw [htimers, hcapacity, h.keys]
  noted := by
    rw [htimers]
    exact h.noted

end Times

/-- The ledger after something is done to it. -/
def perform (l : Ledger) : LedgerOp → Ledger
  | .recordSocket id delta => l.recordSocket id delta
  | .recordStatement id delta => l.recordStatement id delta
  | .append id chunk => l.append id chunk
  | .flush id => l.flush id
  | .nextOrdinal address => (l.nextOrdinal address).2
  | .intern text => (l.intern text).2
  | .clear => l.clear

/-- The ledger after a history. -/
def after (l : Ledger) (ops : List LedgerOp) : Ledger := ops.foldl perform l

/-- No operation changes the capacity. -/
theorem capacity_perform (l : Ledger) (op : LedgerOp) : (l.perform op).capacity = l.capacity := by
  cases op with
  | append id chunk =>
    rw [perform, append_frame]
  | flush id =>
    rw [perform, flush_frame]
  | _ => rfl

/-- Only executions and clearing change what is timed. -/
theorem timers_perform (l : Ledger) {op : LedgerOp} (hclear : op.isClear = false)
    (hexecution : op.execution? = none) : (l.perform op).timers = l.timers := by
  cases op with
  | recordStatement id delta => cases hexecution
  | clear => cases hclear
  | append id chunk =>
    rw [perform, append_frame]
  | flush id =>
    rw [perform, flush_frame]
  | recordSocket id delta => rfl
  | nextOrdinal address => rfl
  | intern text => rfl

/-- No history changes the capacity. -/
theorem capacity_after (l : Ledger) (ops : List LedgerOp) :
    (l.after ops).capacity = l.capacity := by
  induction ops generalizing l with
  | nil => rfl
  | cons op rest ih => exact (ih (l.perform op)).trans (l.capacity_perform op)

/-- **A history, operation by operation.**  What holds of a ledger and of what was recorded in it
holds after every history, if clearing starts anew, recording adds what it records, and nothing else
matters.  The induction goes from the last operation back. -/
theorem recorded_after {α : Type u} {what? : LedgerOp → Option α} (Holds : Ledger → List α → Prop)
    (cleared : ∀ (l : Ledger) (known : List α), Holds l known → Holds l.clear [])
    (recorded : ∀ (l : Ledger) (known : List α) (op : LedgerOp) (new : α), what? op = some new →
      Holds l known → Holds (l.perform op) (known ++ [new]))
    (kept : ∀ (l : Ledger) (known : List α) (op : LedgerOp), op.isClear = false →
      what? op = none → Holds l known → Holds (l.perform op) known)
    {l : Ledger} (start : Holds l []) (ops : List LedgerOp) :
    Holds (l.after ops) (LedgerOp.recorded what? ops) := by
  induction ops using List.reverseRecOn with
  | nil => exact start
  | append_singleton before op ih =>
    have hafter : l.after (before ++ [op]) = (l.after before).perform op := by
      rw [after, List.foldl_concat, after]
    rw [hafter]
    cases hclear : op.isClear with
    | true =>
      obtain rfl : op = .clear := by
        cases op <;> first | rfl | cases hclear
      rw [LedgerOp.recorded_concat_clear]
      exact cleared _ _ ih
    | false =>
      rw [LedgerOp.recorded_concat what? hclear]
      cases hwhat : what? op with
      | none =>
        rw [Option.toList_none, List.append_nil]
        exact kept _ _ op hclear hwhat ih
      | some new => exact recorded _ _ op new hwhat ih

/-- **The table after a history.** -/
theorem times_after {l : Ledger} (h : l.timers = .empty) (ops : List LedgerOp) :
    (l.after ops).Times (LedgerOp.executions ops) := by
  refine recorded_after Times ?cleared ?recorded ?kept (.of_empty h) ops
  case cleared => exact fun _ _ _ => .of_empty rfl
  case recorded =>
    intro l runs op run hexecution htimes
    cases op with
    | recordStatement id delta =>
      obtain rfl := Option.some.inj hexecution
      exact htimes.recordStatement id delta
    | _ => cases hexecution
  case kept =>
    intro l runs op hclear hexecution htimes
    exact htimes.of_eq (timers_perform _ hclear hexecution) (capacity_perform _ op)

/-- One text is shown before another: it ran longer in all, or just as long and is the lesser. -/
def ShownBefore (a b : String × SqlTimer) : Prop :=
  b.2.total < a.2.total ∨ a.2.total = b.2.total ∧ a.1 < b.1

instance : Std.TransCmp timingOrder :=
  inferInstanceAs <| Std.TransCmp <|
    compareLex (fun a b => compareOn (fun row : String × SqlTimer => row.2.total) b a)
      (compareOn fun row => row.1)

/-- Timings are ordered as they are shown. -/
theorem timingOrder_eq_lt {a b : String × SqlTimer} : timingOrder a b = .lt ↔ ShownBefore a b := by
  have htext : compare a.1 b.1 = .lt ↔ a.1 < b.1 := compareOfLessAndEq_eq_lt
  rw [timingOrder, Ordering.then_eq_lt, Std.compare_eq_lt, htext,
    Std.LawfulEqOrd.compare_eq_iff_eq, eq_comm, ShownBefore]

/-- Rows of different texts are never level. -/
theorem shownBefore_of_isLE {a b : String × SqlTimer} (htext : a.1 ≠ b.1)
    (h : (timingOrder a b).isLE = true) : ShownBefore a b := by
  rw [← timingOrder_eq_lt]
  cases horder : timingOrder a b with
  | lt => rfl
  | eq =>
    obtain ⟨-, hsame⟩ := Ordering.then_eq_eq.1 horder
    exact absurd (Std.LawfulEqOrd.eq_of_compare hsame) htext
  | gt =>
    rw [horder] at h
    cases h

/-- What is shown of the table is the front of one list: its rows, each once, the text that ran
longest first. -/
structure Shows (l : Ledger) (ranking : List (String × SqlTimer)) : Prop where
  rows : ranking.Perm l.timers.rows
  once : (ranking.map Prod.fst).Nodup
  falling : ranking.Pairwise ShownBefore
  front : ∀ limit, l.topSql limit = ranking.take limit

/-- There is a ranking that a ledger shows. -/
theorem exists_shows (l : Ledger) : ∃ ranking, l.Shows ranking := by
  have hperm := List.mergeSort_perm l.timers.rows fun a b => (timingOrder a b).isLE
  have honce : (l.timers.rows.mergeSort fun a b => (timingOrder a b).isLE).Pairwise
      fun a b => a.1 ≠ b.1 := by
    refine List.pairwise_map.1 ?_
    exact (hperm.map Prod.fst).nodup_iff.2 l.timers.nodup_keys
  have hsorted := Table.pairwise_mergeSort_isLE timingOrder l.timers.rows
  have hfalling := honce.imp₂ (fun _ _ => shownBefore_of_isLE) hsorted
  exact ⟨_, hperm, List.pairwise_map.2 honce, hfalling, fun _ => rfl⟩

end Ledger

/-- **The table of running times over a history.**  Whatever is done to a ledger, in any order and
with room for any number of texts, it times the texts that came first since it was last cleared,
has noted every execution of each of them, and shows them in the order of their totals. -/
theorem timers_of_history (mergeThreshold : Duration) (capacity : Nat) (texts : Interner)
    (ops : List LedgerOp) :
    let l := ({ mergeThreshold, capacity, texts } : Ledger).after ops
    l.timers.keys = (Execution.texts (LedgerOp.executions ops)).take capacity ∧
      (∀ row ∈ l.timers.rows, row.2.Noted (Execution.times (LedgerOp.executions ops) row.1)) ∧
      ∃ ranking, l.Shows ranking := by
  intro l
  have hcapacity : l.capacity = capacity := Ledger.capacity_after _ ops
  have htimes : l.Times (LedgerOp.executions ops) := Ledger.times_after rfl ops
  refine ⟨?_, ?_, l.exists_shows⟩
  · rw [htimes.keys, hcapacity]
  · intro row hrow
    exact htimes.noted (Table.get?_of_mem_rows hrow)

/-- Room for two texts; the third finds none, and the second runs again after that. -/
example :
    let run := fun (sql : String) (nanos : UInt64) =>
      LedgerOp.recordStatement { sql, kind := .select, owner := ⟨1, none⟩ } (.operation nanos)
    (({ capacity := 2 } : Ledger).after
        [run "a" 3, .clear, run "b" 5, run "c" 50, run "d" 500, run "c" 70]).timers.rows =
      [("b", ⟨1, 5, 5⟩), ("c", ⟨2, 120, 70⟩)] := by
  decide +kernel

end Wiretap
