import Wiretap.Proofs.Gains
import Wiretap.Proofs.Ledger.Timers
/-!
# The counters over a history

A ledger has one counter for each identity of a connection and one for each identity of a statement.
A call finds the counter of its identity or makes a new one that stands at zero, and adds to each of
its fields with a word that wraps.  Addition of words does not mind the order, and neither does the
question whether an identity was ever recorded; so what the counters hold can be read off the calls
as a bag.

* `Counts` says what one operation does to a table of counters: a call counts in it, clearing
  empties it, and everything else leaves it alone.
* `Accounts` says what the table holds after calls.  Every history keeps it (`Counts.accounts`).
* Tables that account for the same calls in another order are the same map (`Accounts.sameMap`).
  Calls of threads that run at the same time are in another order and nothing else
  (`Interleaved.perm`).

An identity has a key, which is all of it but the name of its thread; `counters_of_history` speaks
of keys.
-/

namespace Wiretap

/-- The identity with another name for its thread. -/
def ConnectionId.renamed (c : ConnectionId) (name : Option String) : ConnectionId :=
  { c with owner := { c.owner with name } }

/-- The identity with another name for its thread. -/
def StatementId.renamed (s : StatementId) (name : Option String) : StatementId :=
  { s with owner := { s.owner with name } }

/-- Connections of one key differ in the names of their threads at most. -/
theorem ConnectionId.key_eq_iff {a b : ConnectionId} :
    a.key = b.key ↔ ∃ name, b = a.renamed name := by
  constructor
  · obtain ⟨address, ordinal, ⟨id, name⟩, trace⟩ := a
    obtain ⟨address', ordinal', ⟨id', name'⟩, trace'⟩ := b
    intro h
    simp only [key, Prod.mk.injEq] at h
    obtain ⟨rfl, rfl, rfl, rfl⟩ := h
    exact ⟨name', rfl⟩
  · rintro ⟨name, rfl⟩
    rfl

/-- Statements of one key differ in the names of their threads at most. -/
theorem StatementId.key_eq_iff {a b : StatementId} :
    a.key = b.key ↔ ∃ name, b = a.renamed name := by
  constructor
  · obtain ⟨sql, kind, ⟨id, name⟩, trace⟩ := a
    obtain ⟨sql', kind', ⟨id', name'⟩, trace'⟩ := b
    intro h
    simp only [key, Prod.mk.injEq] at h
    obtain ⟨rfl, rfl, rfl, rfl⟩ := h
    exact ⟨name', rfl⟩
  · rintro ⟨name, rfl⟩
    rfl

/-- One call that counts: for whom, and what it adds. -/
structure Recording (κ : Type u) where
  id : κ
  delta : Stats

namespace LedgerOp

/-- What is recorded for a connection, if anything is. -/
def socketCall? : LedgerOp → Option (Recording ConnectionId)
  | recordSocket id delta => some ⟨id, delta⟩
  | _ => none

/-- What is recorded for a statement, if anything is. -/
def statementCall? : LedgerOp → Option (Recording StatementId)
  | recordStatement id delta => some ⟨id, delta⟩
  | _ => none

end LedgerOp

namespace Recording

variable {κ : Type u} {γ : Type v}

/-- The recording as an increment of plain numbers. -/
def increment (call : Recording κ) : Increment κ where
  key := call.id
  gain x := (call.delta.get x).toNat

/-- The words of the increment are the delta again. -/
theorem ofGain_increment (call : Recording κ) : Stats.ofGain call.increment.gain = call.delta := by
  refine Stats.ext_get fun x => ?_
  rw [Stats.get_ofGain]
  exact UInt64.ofNat_toNat

/-- What calls add to one field for one key. -/
def amounts [DecidableEq γ] (key : κ → γ) (calls : List (Recording κ)) (k : γ) (x : Stats.Field) :
    List Nat :=
  (calls.filter fun call => key call.id = k).map fun call => (call.delta.get x).toNat

/-- The order of the calls does not matter for their sum. -/
theorem sum_amounts_perm [DecidableEq γ] {key : κ → γ} {calls other : List (Recording κ)}
    (h : calls.Perm other) (k : γ) (x : Stats.Field) :
    (amounts key calls k x).sum = (amounts key other k x).sum :=
  ((h.filter _).map _).sum_eq

section Keyed

variable [BEq κ] [DecidableEq γ] {key : κ → γ}

/-- What the calls add to an identity is the sum of their amounts under its key. -/
theorem total_increments (hkey : ∀ {a b : κ}, (a == b) = true ↔ key a = key b)
    (calls : List (Recording κ)) (id : κ) (x : Stats.Field) :
    Increment.total (calls.map increment) id x = (amounts key calls (key id) x).sum := by
  have hsame : ∀ call : Recording κ, (call.increment.key == id) = decide (key call.id = key id) :=
    fun call => Bool.eq_iff_iff.2 (hkey.trans decide_eq_true_iff.symm)
  rw [Increment.total, amounts, List.filter_map, List.map_map]
  simp only [Function.comp_def, hsame]
  rfl

omit [DecidableEq γ] in
/-- An identity is incremented exactly if a call has its key. -/
theorem any_increments (hkey : ∀ {a b : κ}, (a == b) = true ↔ key a = key b)
    (calls : List (Recording κ)) (id : κ) :
    ((calls.map increment).any fun i => i.key == id) = true ↔
      ∃ call ∈ calls, key call.id = key id := by
  rw [List.any_map, List.any_eq_true]
  exact exists_congr fun call => and_congr_right fun _ => hkey

end Keyed

end Recording

namespace Table

variable {κ : Type u} {ν : Type v} {γ : Type w} [BEq κ] {key : κ → γ}

/-- The rows with the keys of their identities. -/
def keyed (key : κ → γ) (t : Table κ ν) : List (γ × ν) :=
  t.rows.map fun row => (key row.1, row.2)

/-- What is found in another table has a row there of the same key. -/
theorem keyed_subset [EquivBEq κ] (hkey : ∀ {a b : κ}, (a == b) = true ↔ key a = key b)
    {one other : Table κ ν} (h : ∀ id, one.get? id = other.get? id) :
    one.keyed key ⊆ other.keyed key := by
  intro row hrow
  obtain ⟨⟨id, value⟩, hmem, rfl⟩ := List.mem_map.1 hrow
  have hfound : other.get? id = some value := by
    rw [← h id]
    exact get?_of_mem_rows hmem
  obtain ⟨id', hsame, hmem'⟩ := get?_eq_some_iff.1 hfound
  refine List.mem_map.2 ⟨(id', value), hmem', ?_⟩
  rw [hkey.1 hsame]

/-- No two rows are of one key. -/
theorem nodup_map_key (hkey : ∀ {a b : κ}, (a == b) = true ↔ key a = key b) (t : Table κ ν) :
    (t.rows.map fun row => key row.1).Nodup := by
  refine List.pairwise_map.2 (t.distinct.imp fun {a b} hdistinct hsame => ?_)
  rw [hkey.2 hsame] at hdistinct
  cases hdistinct

/-- The keys of the rows of a table are different. -/
theorem nodup_keyed (hkey : ∀ {a b : κ}, (a == b) = true ↔ key a = key b) (t : Table κ ν) :
    (t.keyed key).Nodup := by
  refine List.Nodup.of_map Prod.fst ?_
  rw [keyed, List.map_map]
  exact t.nodup_map_key hkey

end Table

/-- Two tables are one map: what is found in the one is found in the other, and they have the same
rows up to what keys do not tell apart. -/
structure SameMap {κ : Type u} {γ : Type v} [BEq κ] (key : κ → γ) (one other : Table κ Stats) :
    Prop where
  get? : ∀ id, one.get? id = other.get? id
  rows : (one.keyed key).Perm (other.keyed key)

/-- What counters hold after calls. -/
structure Accounts {κ : Type u} {γ : Type v} [BEq κ] [DecidableEq γ] (key : κ → γ)
    (counters : Table κ Stats) (calls : List (Recording κ)) : Prop where
  /-- Who was recorded has a counter, and nobody else. -/
  present : ∀ id, counters.contains id = true ↔ ∃ call ∈ calls, key call.id = key id
  /-- A field is the sum of what was added to it, as far as a word can hold it. -/
  counted : ∀ {id : κ} {stats : Stats}, counters.get? id = some stats → ∀ x,
    (stats.get x).toNat = (Recording.amounts key calls (key id) x).sum % 2 ^ 64
  /-- Identities of one key have one counter. -/
  shared : ∀ {a b : κ}, key a = key b → counters.get? a = counters.get? b
  /-- No two counters are of one key. -/
  apart : (counters.rows.map fun row => key row.1).Nodup

/-- A table of the ledger in which the calls of one kind are counted. -/
structure Counts {κ : Type u} [BEq κ] (table : Ledger → Table κ Stats)
    (call? : LedgerOp → Option (Recording κ)) : Prop where
  cleared : ∀ l : Ledger, table l.clear = .empty
  counted : ∀ (l : Ledger) {op : LedgerOp} {call : Recording κ}, call? op = some call →
    table (l.perform op) = Ledger.count (table l) call.id call.delta
  kept : ∀ (l : Ledger) {op : LedgerOp}, op.isClear = false → call? op = none →
    table (l.perform op) = table l

section Tables

variable {κ : Type u} {γ : Type v} [BEq κ] [DecidableEq γ] {key : κ → γ}

namespace Accounts

variable {counters other : Table κ Stats} {calls calls' : List (Recording κ)}

/-- Counters that were counted up from nothing. -/
theorem of_countAll [EquivBEq κ] (hkey : ∀ {a b : κ}, (a == b) = true ↔ key a = key b)
    (calls : List (Recording κ)) :
    Accounts key (Ledger.countAll .empty (calls.map Recording.increment)) calls where
  present id := by
    rw [Ledger.contains_countAll, Table.contains_eq_isSome, Table.get?_empty, Option.isSome_none,
      Bool.false_or, Recording.any_increments hkey]
  counted := by
    intro id stats hget x
    have hreading := Ledger.reading_countAll .empty (calls.map Recording.increment) id x
    rw [Ledger.reading, Ledger.reading, hget, Table.get?_empty, Option.getD_some, Option.getD_none,
      Stats.get_zero, UInt64.zero_add, Recording.total_increments hkey] at hreading
    rw [hreading, UInt64.toNat_ofNat']
  shared := fun h => Table.get?_congr _ (hkey.2 h)
  apart := Table.nodup_map_key hkey _

/-- What accounts for the same calls is found alike. -/
theorem get?_eq (h : Accounts key counters calls) (h' : Accounts key other calls')
    (hperm : calls.Perm calls') (id : κ) : counters.get? id = other.get? id := by
  have hpresent : counters.contains id = other.contains id := by
    rw [Bool.eq_iff_iff, h.present, h'.present]
    exact exists_congr fun call => and_congr_left fun _ => hperm.mem_iff
  rw [Table.contains_eq_isSome, Table.contains_eq_isSome] at hpresent
  cases hone : counters.get? id with
  | none =>
    rw [hone, Option.isSome_none] at hpresent
    have hnone : ¬ (other.get? id).isSome = true := by
      rw [← hpresent]
      exact Bool.false_ne_true
    exact (Option.not_isSome_iff_eq_none.1 hnone).symm
  | some stats =>
    rw [hone, Option.isSome_some] at hpresent
    obtain ⟨stats', htwo⟩ := Option.isSome_iff_exists.1 hpresent.symm
    rw [htwo, Option.some.injEq]
    refine Stats.ext_get fun x => UInt64.toNat_inj.1 ?_
    rw [h.counted hone, h'.counted htwo, Recording.sum_amounts_perm hperm]

/-- **The order of the calls does not matter.** -/
theorem sameMap [EquivBEq κ] (hkey : ∀ {a b : κ}, (a == b) = true ↔ key a = key b)
    (h : Accounts key counters calls) (h' : Accounts key other calls')
    (hperm : calls.Perm calls') : SameMap key counters other where
  get? := h.get?_eq h' hperm
  rows := by
    have hforth := Table.keyed_subset hkey (h.get?_eq h' hperm)
    have hback := Table.keyed_subset hkey (h'.get?_eq h hperm.symm)
    exact (List.perm_ext_iff_of_nodup (counters.nodup_keyed hkey) (other.nodup_keyed hkey)).2
      fun row => ⟨fun hrow => hforth hrow, fun hrow => hback hrow⟩

end Accounts

namespace Counts

variable {table : Ledger → Table κ Stats} {call? : LedgerOp → Option (Recording κ)}

/-- The table is counted up from the recordings since the ledger was last cleared. -/
theorem table_after (h : Counts table call?) {l : Ledger} (hempty : table l = .empty)
    (ops : List LedgerOp) :
    table (l.after ops) =
      Ledger.countAll .empty ((LedgerOp.recorded call? ops).map Recording.increment) := by
  refine Ledger.recorded_after
    (fun l calls => table l = Ledger.countAll .empty (calls.map Recording.increment))
    ?cleared ?counted ?kept hempty ops
  case cleared => exact fun l _ _ => h.cleared l
  case counted =>
    intro l calls op call hcall hbefore
    rw [h.counted l hcall, hbefore, List.map_append, Ledger.countAll_append,
      ← call.ofGain_increment]
    rfl
  case kept =>
    intro l calls op hclear hcall hbefore
    rw [h.kept l hclear hcall, hbefore]

/-- **Every history is accounted for.** -/
theorem accounts [EquivBEq κ] (h : Counts table call?)
    (hkey : ∀ {a b : κ}, (a == b) = true ↔ key a = key b) {l : Ledger} (hempty : table l = .empty)
    (ops : List LedgerOp) : Accounts key (table (l.after ops)) (LedgerOp.recorded call? ops) := by
  rw [h.table_after hempty]
  exact .of_countAll hkey _

/-- What follows a history may come in another order. -/
theorem sameMap [EquivBEq κ] (h : Counts table call?)
    (hkey : ∀ {a b : κ}, (a == b) = true ↔ key a = key b) {l : Ledger} (hempty : table l = .empty)
    (before : List LedgerOp) {one other : List LedgerOp} (hperm : one.Perm other)
    (hclear : ∀ op ∈ one, op.isClear = false) :
    SameMap key (table ((l.after before).after one)) (table ((l.after before).after other)) := by
  have happend : ∀ later, (l.after before).after later = l.after (before ++ later) :=
    fun later => List.foldl_append.symm
  rw [happend, happend]
  exact (h.accounts hkey hempty _).sameMap hkey (h.accounts hkey hempty _)
    (LedgerOp.recorded_append_perm call? hperm hclear before)

end Counts

end Tables

/-- The counters of connections count the calls on streams. -/
theorem counts_sockets : Counts Ledger.sockets LedgerOp.socketCall? where
  cleared _ := rfl
  counted := by
    intro l op call hcall
    cases op with
    | recordSocket id delta =>
      obtain rfl := Option.some.inj hcall
      rfl
    | _ => cases hcall
  kept := by
    intro l op hclear hcall
    cases op with
    | recordSocket id delta => cases hcall
    | clear => cases hclear
    | append id chunk => rw [Ledger.perform, Ledger.append_frame]
    | flush id => rw [Ledger.perform, Ledger.flush_frame]
    | _ => rfl

/-- The counters of statements count the statements. -/
theorem counts_statements : Counts Ledger.statements LedgerOp.statementCall? where
  cleared _ := rfl
  counted := by
    intro l op call hcall
    cases op with
    | recordStatement id delta =>
      obtain rfl := Option.some.inj hcall
      rfl
    | _ => cases hcall
  kept := by
    intro l op hclear hcall
    cases op with
    | recordStatement id delta => cases hcall
    | clear => cases hclear
    | append id chunk => rw [Ledger.perform, Ledger.append_frame]
    | flush id => rw [Ledger.perform, Ledger.flush_frame]
    | _ => rfl

/-- A run of threads together: again and again one of them that is not done yet goes on. -/
inductive Interleaved {α : Type u} : List (List α) → List α → Prop where
  | done {threads : List (List α)} (h : ∀ thread ∈ threads, thread = []) : Interleaved threads []
  | step (before : List (List α)) {behind : List (List α)} {next : α} {rest run : List α}
    (h : Interleaved (before ++ rest :: behind) run) :
    Interleaved (before ++ (next :: rest) :: behind) (next :: run)

/-- **Whatever runs, is what the threads do,** in some order. -/
theorem Interleaved.perm {α : Type u} {threads : List (List α)} {run : List α}
    (h : Interleaved threads run) : run.Perm threads.flatten := by
  induction h with
  | done h => rw [List.flatten_eq_nil_iff.2 h]
  | @step before behind next rest run _ ih =>
    have hfirst : (next :: (before ++ rest :: behind).flatten).Perm
        (before ++ (next :: rest) :: behind).flatten := by
      rw [List.flatten_append, List.flatten_append, List.flatten_cons, List.flatten_cons,
        List.cons_append]
      exact List.perm_middle.symm
    exact (ih.cons next).trans hfirst

/-- Two ledgers have counted the same. -/
structure CountedAlike (one other : Ledger) : Prop where
  sockets : SameMap ConnectionId.key one.sockets other.sockets
  statements : SameMap StatementId.key one.statements other.statements

/-- **The counters over a history.**  Whatever is done to a ledger, its counters hold what was
recorded since it was last cleared, each field modulo `2 ^ 64`; recordings go to one counter just
where their identities are the same but for the name of the thread; and what is done next may be
done in any order and by any threads in between each other. -/
theorem counters_of_history (mergeThreshold : Duration) (capacity : Nat) (texts : Interner)
    (ops : List LedgerOp) :
    let l := ({ mergeThreshold, capacity, texts } : Ledger).after ops
    (Accounts ConnectionId.key l.sockets (LedgerOp.recorded LedgerOp.socketCall? ops) ∧
        ∀ a b : ConnectionId, a.key = b.key ↔ ∃ name, b = a.renamed name) ∧
      (Accounts StatementId.key l.statements (LedgerOp.recorded LedgerOp.statementCall? ops) ∧
        ∀ a b : StatementId, a.key = b.key ↔ ∃ name, b = a.renamed name) ∧
      (∀ one other, one.Perm other → (∀ op ∈ one, op.isClear = false) →
        CountedAlike (l.after one) (l.after other)) ∧
      ∀ threads one other, Interleaved threads one → Interleaved threads other →
        (∀ thread ∈ threads, ∀ op ∈ thread, op.isClear = false) →
          CountedAlike (l.after one) (l.after other) := by
  intro l
  have hperm : ∀ one other, one.Perm other → (∀ op ∈ one, op.isClear = false) →
      CountedAlike (l.after one) (l.after other) := fun one other h hclear =>
    { sockets := counts_sockets.sameMap ConnectionId.beq_iff rfl ops h hclear
      statements := counts_statements.sameMap StatementId.beq_iff rfl ops h hclear }
  have hsockets : Accounts ConnectionId.key l.sockets (LedgerOp.recorded LedgerOp.socketCall? ops) :=
    counts_sockets.accounts ConnectionId.beq_iff rfl ops
  have hstatements :
      Accounts StatementId.key l.statements (LedgerOp.recorded LedgerOp.statementCall? ops) :=
    counts_statements.accounts StatementId.beq_iff rfl ops
  refine ⟨⟨hsockets, fun _ _ => ConnectionId.key_eq_iff⟩,
    ⟨hstatements, fun _ _ => StatementId.key_eq_iff⟩, hperm, ?_⟩
  intro threads one other hone hother hclear
  refine hperm one other (hone.perm.trans hother.perm.symm) fun op hop => ?_
  obtain ⟨thread, hthread, hmem⟩ := List.mem_flatten.1 (hone.perm.mem_iff.1 hop)
  exact hclear thread hthread op hmem

/-- Two threads record for identities that differ in a name and count in one counter, where the time
wraps; a call site makes another counter.  Whether they take turns or the second goes first is the
same. -/
theorem counters_of_history_two_threads :
    let here : StatementId := { sql := "select 1", kind := .select, owner := ⟨1, some "main"⟩ }
    let run := fun (id : StatementId) (nanos : UInt64) =>
      LedgerOp.recordStatement id (.operation nanos)
    let first := [run here 18446744073709551615, run here 1]
    let second := [run (here.renamed none) 2, run { here with trace := some "t" } 5]
    let turns := [run here 18446744073709551615, run (here.renamed none) 2, run here 1,
      run { here with trace := some "t" } 5]
    let l : Ledger := {}
    (l.after turns).statements.keyed StatementId.key =
        [(here.key, { elapsed := 2, operations := 3 }),
          (("select 1", .select, 1, some "t"), .operation 5)] ∧
      CountedAlike (l.after turns) (l.after (second ++ first)) ∧
      CountedAlike (l.after turns) (l.after turns.reverse) := by
  intro here run first second turns l
  obtain ⟨-, -, hperm, hthreads⟩ := counters_of_history (.ofMillis 500) 1024 .fresh []
  have hturns : Interleaved [first, second] turns :=
    .step [] <| .step [_] <| .step [] <|
      .step [_] <| .done (by simp)
  have hsecond : Interleaved [first, second] (second ++ first) :=
    .step [_] <| .step [_] <| .step [] <|
      .step [] <| .done (by simp)
  refine ⟨by decide +kernel, hthreads [first, second] turns (second ++ first) hturns hsecond ?_,
    hperm turns turns.reverse turns.reverse_perm.symm ?_⟩
  · decide
  · decide

end Wiretap
