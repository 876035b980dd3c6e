import Mathlib.Algebra.Order.BigOperators.Group.List
import Mathlib.Algebra.Order.Group.Nat
import Mathlib.Data.List.Dedup
import Wiretap.Proofs.Connections.Events
import Wiretap.Proofs.Gathering
import Wiretap.Proofs.Window.History
/-!
# Expectations and questions count the same things

What was done in a window can be told in two ways.  An expectation goes through the counters that
changed, and adds up those that it selects.  A question puts the selected counters under new keys
first, without call sites if that is asked for, and adds up with a cap those that fall together;
the answer is a table, which can then be counted.

As long as no total wraps, **both come to the same**.  New keys keep what a question selects by: the
kind of a statement, and the connection of an identity.

* `Query.sumOver_regroup` — counters that fall together add up to as much as they did apart;
* `Query.counts_regroup_iff` — and they count for a connection if one of them did;
* `Application.counts_of_mem_observe` — what a window shows of a statement is one execution at
  least.  An expectation passes over counters without any, and a question does not, so this is
  what keeps the rows the same;
* `Application.expectations_agree_with_questions` — the two ways for a window of a run.
-/

namespace Wiretap

/-! ## Counters that fall together -/

/-- What one selected key has is no more than all selected keys have. -/
theorem Table.amount_le_sumOver {κ : Type u} {ν : Type v} [BEq κ] [EquivBEq κ] {t : Table κ ν}
    {selects : κ → Bool} (hselects : ∀ k k', (k == k') = true → selects k = selects k')
    {k : κ} {v : ν} (hv : t.get? k = some v) (hk : selects k = true) (amount : ν → Nat) :
    amount v ≤ t.sumOver selects amount := by
  obtain ⟨k', hkey, hrow⟩ := get?_eq_some_iff.1 hv
  have hrow' : (k', v) ∈ t.rows.filter fun row => selects row.1 :=
    List.mem_filter.2 ⟨hrow, (hselects _ _ hkey).trans hk⟩
  exact List.le_sum_of_mem (List.mem_map.2 ⟨_, hrow', rfl⟩)

theorem cappedAdd_eq_zero_iff {a b : UInt64} : cappedAdd a b = 0 ↔ a = 0 ∧ b = 0 := by
  rw [← UInt64.toNat_inj, ← UInt64.toNat_inj, ← UInt64.toNat_inj, toNat_cappedAdd, toNat_greatest,
    UInt64.toNat_zero]
  omega

/-- A total rises by what is added, unless it meets the cap. -/
theorem Stats.exists_rise (a b : Stats) (x : Field) :
    ∃ n, ((a.plus b).get x).toNat = (a.get x).toNat + n ∧
      ((a.get x).toNat + (b.get x).toNat < 2 ^ 64 → n = (b.get x).toNat) := by
  have ha := (a.get x).toNat_lt
  rw [get_plus, toNat_cappedAdd, toNat_greatest]
  refine ⟨min ((a.get x).toNat + (b.get x).toNat) 18446744073709551615 - (a.get x).toNat, ?_, ?_⟩
  · omega
  · omega

/-- Of readings that are added up, one counts something if the total does. -/
theorem Stats.get_foldl_plus_eq_zero_iff {κ : Type u} (x : Field) (rows : List (κ × Stats))
    (total : Stats) :
    (rows.foldl (fun s row => s.plus row.2) total).get x = 0 ↔
      total.get x = 0 ∧ ∀ row ∈ rows, row.2.get x = 0 := by
  induction rows generalizing total with
  | nil => simp
  | cons row rest ih =>
    rw [List.foldl_cons, ih, get_plus, cappedAdd_eq_zero_iff, List.forall_mem_cons, and_assoc]

namespace Query

variable {κ : Type u} [BEq κ] [EquivBEq κ] {rekey : κ → κ} {p : κ → Bool}
  (hp : ∀ k k', (k == k') = true → p k = p k') (hrekey : ∀ k, p (rekey k) = p k) (x : Stats.Field)

include hp hrekey

/-- **Counters that fall together add up to as much as they did apart**, where it is asked for what
new keys keep and the total does not wrap.  By induction on the counters, from the last one back.
Only selected counters are known to add up, and others may meet the cap; these are not counted, so
it does not matter by how much they rise. -/
theorem sumOver_regroup {rows : List (κ × Stats)}
    (hfits : ((rows.filter fun row => p row.1).map fun row => (row.2.get x).toNat).sum < 2 ^ 64) :
    (regroup rekey rows).sumOver p (fun s => (s.get x).toNat) =
      ((rows.filter fun row => p row.1).map fun row => (row.2.get x).toNat).sum := by
  induction rows using List.reverseRecOn with
  | nil => rfl
  | append_singleton rows row ih =>
    rw [List.filter_append, List.map_append, List.sum_append] at hfits
    have hsofar := ih (by omega)
    have hheld : ∀ s : Option Stats,
        ((s.getD .zero).get x).toNat = (s.map fun s => (s.get x).toNat).getD 0 := by
      intro s
      cases s with
      | none => rw [Option.getD_none, Stats.get_zero]; rfl
      | some s => rfl
    obtain ⟨n, hrise, hwhole⟩ :=
      Stats.exists_rise (((regroup rekey rows).get? (rekey row.1)).getD .zero) row.2 x
    rw [hheld] at hrise hwhole
    rw [regroup_concat, Table.sumOver_alter _ hp hrise, hsofar, List.filter_append,
      List.map_append, List.sum_append, hrekey]
    by_cases hrow : p row.1 = true
    · have hle : (((regroup rekey rows).get? (rekey row.1)).map fun s => (s.get x).toNat).getD 0 ≤
          (regroup rekey rows).sumOver p fun s => (s.get x).toNat := by
        cases hget : (regroup rekey rows).get? (rekey row.1) with
        | none => exact Nat.zero_le _
        | some s =>
          exact Table.amount_le_sumOver hp hget ((hrekey _).trans hrow) fun s => (s.get x).toNat
      rw [List.filter_singleton, hrow, cond_true, List.map_singleton, List.sum_singleton] at hfits
      rw [if_pos hrow, List.filter_singleton, hrow, cond_true, List.map_singleton,
        List.sum_singleton, hwhole (by omega)]
    · rw [if_neg hrow, List.filter_singleton, Bool.eq_false_iff.2 hrow, cond_false]
      rfl

/-- **Counters that fall together count for something if one of them did.** -/
theorem counts_regroup_iff (rows : List (κ × Stats)) :
    (∃ row ∈ (regroup rekey rows).rows, row.2.get x ≠ 0 ∧ p row.1 = true) ↔
      ∃ row ∈ rows, row.2.get x ≠ 0 ∧ p row.1 = true := by
  constructor
  · rintro ⟨row, hrow, hcounts, hsel⟩
    have hfound := get?_regroup rekey rows row.1
    rw [Table.get?_of_mem_rows hrow] at hfound
    split at hfound
    · cases hfound
    · rw [Option.some.injEq] at hfound
      rw [hfound, Ne, Stats.get_foldl_plus_eq_zero_iff, Stats.get_zero, not_and, not_forall₂]
        at hcounts
      obtain ⟨part, hpart, hnonzero⟩ := hcounts rfl
      obtain ⟨hmem, hkey⟩ := List.mem_filter.1 hpart
      refine ⟨part, hmem, hnonzero, ?_⟩
      rw [← hrekey, hp _ _ hkey]
      exact hsel
  · rintro ⟨part, hpart, hcounts, hsel⟩
    have hmem : part ∈ rows.filter fun row => rekey row.1 == rekey part.1 :=
      List.mem_filter.2 ⟨hpart, BEq.rfl⟩
    have hfound := get?_regroup rekey rows (rekey part.1)
    rw [if_neg (List.ne_nil_of_mem hmem)] at hfound
    obtain ⟨k, hkey, hrow⟩ := Table.get?_eq_some_iff.1 hfound
    refine ⟨_, hrow, ?_, (hp _ _ hkey).trans ((hrekey _).trans hsel)⟩
    rw [Ne, Stats.get_foldl_plus_eq_zero_iff]
    exact fun hzero => hcounts (hzero.2 _ hmem)

end Query

/-! ## Observations -/

/-- The connections on which counters have operations, each once. -/
def Query.connections (counters : Table ConnectionId Stats) : List (Address × UInt32) :=
  ((counters.rows.filter fun row => row.2.operations != 0).map fun row => row.1.connection).dedup

theorem StatementId.covers_congr (kind : StatementKind) (k k' : StatementId)
    (h : (k == k') = true) : kind.covers k.kind = kind.covers k'.kind := by
  have hkey := StatementId.beq_iff.1 h
  simp only [StatementId.key, Prod.mk.injEq] at hkey
  rw [hkey.2.1]

namespace Observation

variable (o : Observation) (kind : StatementKind) (scope : Scope) (removeTraces : Bool)

/-- The statement counters that an expectation goes through, counters without executions included. -/
def countedStatements : List (StatementId × Stats) :=
  (o.statements.rows.filter fun row => scope.selects row.1.owner o.creator).filter fun row =>
    kind.covers row.1.kind

/-- The selected statements are those that are counted and have operations. -/
theorem selectedStatements_eq :
    o.selectedStatements kind scope =
      (o.countedStatements kind scope).filter fun row => row.2.operations != 0 := by
  rw [selectedStatements, countedStatements, List.filter_filter, List.filter_filter]

/-- The executions do not miss counters that have none. -/
theorem sum_executions_eq :
    ((o.selectedStatements kind scope).map fun row => row.2.operations.toNat).sum =
      ((o.countedStatements kind scope).map fun row => row.2.operations.toNat).sum := by
  rw [selectedStatements_eq, Baseline.sum_filter_eq]
  refine congrArg List.sum (List.map_congr_left fun row _ => ?_)
  by_cases hzero : row.2.operations = 0
  · rw [hzero]
    rfl
  · rw [if_pos (bne_iff_ne.2 hzero)]

/-- A question on statements adds up to what is counted for a kind. -/
theorem sumOver_statements (x : Stats.Field)
    (hfits : ((o.countedStatements kind scope).map fun row => (row.2.get x).toNat).sum < 2 ^ 64) :
    (Query.statements o.statements scope o.creator removeTraces).sumOver
        (fun id => kind.covers id.kind) (fun stats => (stats.get x).toNat) =
      ((o.countedStatements kind scope).map fun row => (row.2.get x).toNat).sum := by
  refine Query.sumOver_regroup (StatementId.covers_congr kind) (fun id => ?_) x hfits
  cases removeTraces <;> rfl

end Observation

namespace Finding

open Observation

variable {e : Expectation} (o : Observation) (removeTraces : Bool)

/-- **An expectation observes the executions that the questions tell.** -/
theorem observed_eq_executions {kind : StatementKind} (h : e.target = .statements kind)
    (hfits : ((o.selectedStatements kind e.threads).map fun row =>
      row.2.operations.toNat).sum < 2 ^ 64) :
    (evaluate e o).observed =
      Query.executions (Query.statements o.statements e.threads o.creator removeTraces) kind := by
  have hsum := o.sum_executions_eq kind e.threads
  rw [hsum] at hfits
  have hquestion := o.sumOver_statements kind e.threads removeTraces .operations hfits
  rw [(evaluate_statements h o).1, Query.executions, sum_words, sum_words, List.map_map,
    List.map_map]
  exact congrArg UInt64.ofNat (hsum.trans hquestion.symm)

/-- **And their rows,** if no counter has rows without an execution. -/
theorem rows_eq_sumOver {kind : StatementKind} (h : e.target = .statements kind)
    (hcounts : ∀ row ∈ o.statements.rows, row.2.operations ≠ 0)
    (hfits : ((o.selectedStatements kind e.threads).map fun row =>
      row.2.rows.toNat).sum < 2 ^ 64) :
    (evaluate e o).rows.map UInt64.toNat =
      some ((Query.statements o.statements e.threads o.creator removeTraces).sumOver
        (fun id => kind.covers id.kind) fun stats => stats.rows.toNat) := by
  have hall : o.selectedStatements kind e.threads = o.countedStatements kind e.threads := by
    rw [selectedStatements_eq]
    refine List.filter_eq_self.2 fun row hrow => bne_iff_ne.2 (hcounts row ?_)
    exact List.mem_of_mem_filter (List.mem_of_mem_filter hrow)
  have hwords : (((o.selectedStatements kind e.threads).map fun row => row.2.rows).map
      UInt64.toNat).sum < 2 ^ 64 := by
    rw [List.map_map]
    exact hfits
  rw [(evaluate_statements h o).2, Option.map_some, toNat_sum_words hwords, List.map_map, hall]
  rw [hall] at hfits
  exact congrArg some (o.sumOver_statements kind e.threads removeTraces .rows hfits).symm

/-- The connections that an expectation finds are those that the questions tell.  Both lists have
each connection once, so it is enough that they have the same ones. -/
theorem connections_perm (matcher : AddressMatcher) :
    (connections (o.selectedSockets matcher e.threads)).keys.Perm
      (Query.connections
        (Query.sockets o.sockets e.threads o.creator matcher removeTraces)) := by
  refine (List.perm_ext_iff_of_nodup (Table.nodup_keys _) (List.nodup_dedup _)).2 fun key => ?_
  let rekey (id : ConnectionId) : ConnectionId := if removeTraces then id.withoutTrace else id
  have hcongr : ∀ k k' : ConnectionId, (k == k') = true →
      (k.connection == key) = (k'.connection == key) := by
    intro k k' hk
    rw [ConnectionId.connection_congr hk]
  have hkept : ∀ k : ConnectionId, ((rekey k).connection == key) = (k.connection == key) := by
    intro k
    cases removeTraces <;> rfl
  have hquestion := Query.counts_regroup_iff hcongr hkept .operations
    (o.sockets.rows.filter fun row =>
      e.threads.selects row.1.owner o.creator && matcher.accepts row.1.address)
  calc key ∈ (connections (o.selectedSockets matcher e.threads)).keys
      ↔ ∃ row ∈ o.selectedSockets matcher e.threads, (row.1.connection == key) = true := by
        rw [Table.mem_keys_iff, (connections_spec _).contains, List.any_eq_true]
    _ ↔ ∃ row ∈ o.sockets.rows.filter fun row =>
          e.threads.selects row.1.owner o.creator && matcher.accepts row.1.address,
          row.2.operations ≠ 0 ∧ (row.1.connection == key) = true := by
        refine exists_congr fun row => ?_
        simp only [selectedSockets, List.mem_filter, Bool.and_eq_true, bne_iff_ne]
        tauto
    _ ↔ ∃ row ∈ (Query.sockets o.sockets e.threads o.creator matcher removeTraces).rows,
          row.2.operations ≠ 0 ∧ (row.1.connection == key) = true := hquestion.symm
    _ ↔ key ∈ Query.connections
          (Query.sockets o.sockets e.threads o.creator matcher removeTraces) := by
        rw [Query.connections, List.mem_dedup, List.mem_map]
        simp only [List.mem_filter, bne_iff_ne, beq_iff_eq, and_assoc]

/-- **An expectation observes the connections that the questions tell.** -/
theorem toNat_observed_eq_connections {matcher : AddressMatcher}
    (h : e.target = .connections matcher) (hsockets : o.sockets.size < 2 ^ 64) :
    (evaluate e o).observed.toNat =
      (Query.connections
        (Query.sockets o.sockets e.threads o.creator matcher removeTraces)).length := by
  have hle := (length_reported_le (o.selectedSockets matcher e.threads)).trans
    (List.length_filter_le _ _)
  have hlength : (reported (o.selectedSockets matcher e.threads)).length =
      (connections (o.selectedSockets matcher e.threads)).keys.length := by
    rw [reported, List.length_map, Table.sorted, List.length_mergeSort, Table.keys,
      List.length_map]
  rw [(evaluate_connections h o).1, ← (connections_perm o removeTraces matcher).length_eq,
    ← hlength]
  exact UInt64.toNat_ofNat_of_lt' (Nat.lt_of_le_of_lt hle hsockets)

end Finding

/-! ## Windows -/

/-- Counters gained nothing over themselves. -/
theorem Baseline.rows_gains_self {κ : Type u} [BEq κ] [EquivBEq κ] (t : Table κ Stats) :
    (gains t t).rows = [] := by
  refine List.filterMap_eq_nil_iff.2 fun row hrow => ?_
  have hnothing : row.2.since row.2 = .zero := Stats.since_eq_of_get fun x => by simp
  simp only [Table.get?_of_mem_rows hrow, hnothing]
  rfl

namespace Application

variable {σ : Type} (a : Application σ) (before after : List (Action σ)) {s : Spy}
  (hbegins : s.BeginsAt (a.run before).tap.ledger) (hclear : Action.clear ∉ after)

include hbegins hclear

/-- Where statements are not counted a window shows none. -/
theorem observe_statements_of_unmonitored (hsql : a.tap.settings.monitorSql = false) :
    (s.observe (a.run (before ++ after)).tap.ledger).statements.rows = [] := by
  have hsettings : (a.run before).tap.settings.monitorSql = false := by
    rw [a.run_settings before]
    exact hsql
  have hsame := Ledger.noteAll_same (Ledger.note_statements_of_unmonitored hsettings)
    (a.run before).tap.ledger.content ((a.run before).cleared_notMem hclear)
  rw [← run_ledger, Ledger.content_statements, Ledger.content_statements, ← run_append] at hsame
  have hbaseline : s.baseline.statements = (a.run before).tap.ledger.statements := by
    rw [hbegins.baseline]
    rfl
  rw [Spy.observe, hsame, hbaseline]
  exact Baseline.rows_gains_self _

section Fits

variable (hfits : Ledger.Fits (a.run before).tap.ledger.statements
  ((a.run before).statementIncrements after))

include hfits

/-- **What a window shows of a statement is one execution at least.** -/
theorem counts_of_mem_observe {row : StatementId × Stats}
    (hrow : row ∈ (s.observe (a.run (before ++ after)).tap.ledger).statements.rows) :
    row.2.operations ≠ 0 := by
  cases hsql : a.tap.settings.monitorSql with
  | true =>
    rw [statementIncrements, a.run_settings before] at hfits
    have honce := StatementCall.eachOnce_increments a.tap.settings
      ((a.run before).statements after)
    rw [a.observe_statements before after hsql hbegins hclear] at hrow
    obtain ⟨hget, hone⟩ := Baseline.row_gains_countAll hfits honce hrow
    intro hzero
    have hoperations : row.2.operations.toNat = _ := hget .operations
    rw [hzero, UInt64.toNat_zero] at hoperations
    omega
  | false =>
    rw [a.observe_statements_of_unmonitored before after hbegins hclear hsql] at hrow
    cases hrow

/-- What an expectation adds up is no more than the statements that are asked for added; less, if
statements are not counted. -/
theorem sum_selectedStatements_le (kind : StatementKind) (scope : Scope) (x : Stats.Field) :
    (((s.observe (a.run (before ++ after)).tap.ledger).selectedStatements kind scope).map
        fun row => (row.2.get x).toNat).sum ≤
      (((a.run before).selectedStatements after kind scope s.creator).map fun c =>
        c.gain x).sum := by
  cases hsql : a.tap.settings.monitorSql with
  | true =>
    rw [statementIncrements, a.run_settings before] at hfits
    exact Nat.le_of_eq
      (a.sum_selectedStatements before after hsql hbegins hclear hfits kind scope x)
  | false =>
    rw [Observation.selectedStatements,
      a.observe_statements_of_unmonitored before after hbegins hclear hsql]
    exact Nat.zero_le _

end Fits

end Application

namespace Application

variable {σ : Type}

/-- **Expectations and questions count the same things.**  Let a spy that is open have been opened or
reset after some actions, let others follow that do not clear the ledger, and let no total wrap.
Whatever the threads, the kind of statements and the addresses that are asked for:

* an expectation on statements observes as many as the question for their number tells, and as many
  rows as the statements of the kind have in the window, asked for with their call sites or without;
* an expectation on connections observes as many as have operations in the window, asked for with
  the call sites of their identities or without. -/
theorem expectations_agree_with_questions (a : Application σ) (before after : List (Action σ))
    {s : Spy} (hbegins : s.BeginsAt (a.run before).tap.ledger) (hopen : s.closed = false)
    (hclear : Action.clear ∉ after) (kind : StatementKind) (matcher : AddressMatcher)
    (scope : Scope)
    (hfits : Ledger.Fits (a.run before).tap.ledger.statements
      ((a.run before).statementIncrements after))
    (hcount : ((a.run before).selectedStatements after kind scope s.creator).length < 2 ^ 64)
    (hrows : (((a.run before).selectedStatements after kind scope s.creator).map
      StatementCall.rows).sum < 2 ^ 64)
    (hsockets : (a.run (before ++ after)).tap.ledger.sockets.size < 2 ^ 64) :
    let now := (a.run (before ++ after)).tap.ledger
    (∀ e : Expectation, e.target = .statements kind → e.threads = scope →
      ∃ f : Finding, s.Yields now e f ∧ f.observed = s.statementCount now kind scope ∧
        ∀ removeTraces, f.rows.map UInt64.toNat =
          some ((s.executedStatements now scope removeTraces).sumOver
            (fun id => kind.covers id.kind) fun stats => stats.rows.toNat)) ∧
    ∀ e : Expectation, e.target = .connections matcher → e.threads = scope →
      ∃ f : Finding, s.Yields now e f ∧ ∀ removeTraces, f.observed.toNat =
        (Query.connections (s.socketOperations now scope matcher removeTraces)).length := by
  intro now
  have hle := a.sum_selectedStatements_le before after hbegins hclear hfits kind scope
  constructor
  · rintro e htarget rfl
    have hexecutions : (((s.observe now).selectedStatements kind e.threads).map fun row =>
        row.2.operations.toNat).sum < 2 ^ 64 := by
      refine Nat.lt_of_le_of_lt (hle .operations) ?_
      simpa [StatementCall.gain] using hcount
    have hfew : (((s.observe now).selectedStatements kind e.threads).map fun row =>
        row.2.rows.toNat).sum < 2 ^ 64 := Nat.lt_of_le_of_lt (hle .rows) hrows
    refine ⟨s.finding now e, Spy.yields_finding hopen now e, ?_, fun removeTraces => ?_⟩
    · exact Finding.observed_eq_executions (s.observe now) true htarget hexecutions
    · exact Finding.rows_eq_sumOver (s.observe now) removeTraces htarget
        (fun row => a.counts_of_mem_observe before after hbegins hclear hfits) hfew
  · rintro e htarget rfl
    refine ⟨s.finding now e, Spy.yields_finding hopen now e, fun removeTraces => ?_⟩
    have hobserved : (s.observe now).sockets.size ≤ now.sockets.size := List.length_filterMap_le _ _
    exact Finding.toNat_observed_eq_connections (s.observe now) removeTraces htarget
      (Nat.lt_of_le_of_lt hobserved hsockets)

/-- In a window with statements and calls on connections by two threads, the questions tell three
statements that select, with three rows, and two connections; so that is what expectations on them
observe. -/
theorem expectations_agree_with_questions_selectTwice :
    let opened := (ticking.run (insertOne ++ openOne)).tap.ledger
    let now := (ticking.run (insertOne ++ openOne ++ (selectTwice ++ useBoth))).tap.ledger
    let s := Spy.begin ⟨1, none⟩ opened
    (∃ f : Finding, s.Yields now
      { target := .statements .select, count := .exact 3, rows := none, threads := .any } f ∧
        f.observed = 3 ∧ f.rows.map UInt64.toNat = some 3) ∧
    ∃ f : Finding, s.Yields now
      { target := .connections {}, count := .exact 2, rows := none, threads := .any } f ∧
        f.observed.toNat = 2 := by
  intro opened now s
  have hfits : Ledger.Fits opened.statements
      ((ticking.run (insertOne ++ openOne)).statementIncrements (selectTwice ++ useBoth)) := by
    rw [ticking.run_statements rfl (by simp [insertOne, openOne])]
    refine Ledger.fits_of_sum_lt fun x => ?_
    cases x <;> decide +kernel
  obtain ⟨hstatements, hconnections⟩ := ticking.expectations_agree_with_questions
    (insertOne ++ openOne) (selectTwice ++ useBoth) (.begin (l := opened) ⟨1, none⟩) rfl
    (by simp [selectTwice, useBoth]) .select {} .any hfits (by decide +kernel) (by decide +kernel)
    (by decide +kernel)
  obtain ⟨f, hyields, hobserved, hrows⟩ := hstatements
    { target := .statements .select, count := .exact 3, rows := none, threads := .any } rfl rfl
  obtain ⟨g, hyields', hobserved'⟩ := hconnections
    { target := .connections {}, count := .exact 2, rows := none, threads := .any } rfl rfl
  refine ⟨⟨f, hyields, hobserved.trans ?_, (hrows false).trans ?_⟩,
    ⟨g, hyields', (hobserved' true).trans ?_⟩⟩
  · decide +kernel
  · decide +kernel
  · decide +kernel

end Application

end Wiretap
