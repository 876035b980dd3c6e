import Wiretap.Proofs.Window
/-!
# A window counts the statements that were made in it

A statement expectation that is held against a window observes the statements that were made
since the window began: as many as there were of the kind and by the threads in question, and with
as many rows as their answers had (`statement_window_exact`).

The counters know only identities, under which many statements, of several texts, may have been
counted before, at and after the beginning.  What ties the two together is that each statement is
one increment of its identity's counter, so the window's differences add up to the increments
(`Baseline.sum_gains`), and that a question selects statements by what their identity keeps.
-/

namespace Wiretap

/-- The statement that happened, if it was one. -/
def Happening.statement? : Happening → Option StatementCall
  | .statement c => some c
  | _ => none

namespace StatementCall

/-- What a statement adds, and to which counter. -/
def increment (s : Settings) (c : StatementCall) : Increment StatementId := ⟨c.id s, c.gain⟩

/-- Whether a statement is of a kind that is asked for, and by a thread that is asked for. -/
def selected (kind : StatementKind) (scope : Scope) (creator : Thread) (c : StatementCall) : Bool :=
  kind.covers c.kind && scope.selects c.caller.thread creator

theorem eachOnce_increments (s : Settings) (calls : List StatementCall) :
    Increment.EachOnce (calls.map (increment s)) := by
  intro i hi
  obtain ⟨c, -, rfl⟩ := List.mem_map.1 hi
  rfl

end StatementCall

namespace Application

variable {σ : Type}

/-- The statements of a run. -/
def statements (a : Application σ) (actions : List (Action σ)) : List StatementCall :=
  (a.happenings actions).filterMap Happening.statement?

/-- The statements of a run that are asked for. -/
def selectedStatements (a : Application σ) (actions : List (Action σ)) (kind : StatementKind)
    (scope : Scope) (creator : Thread) : List StatementCall :=
  (a.statements actions).filter (StatementCall.selected kind scope creator)

end Application

namespace Ledger

/-- A happening touches the statement counters only if it is a statement. -/
theorem note_statements {s : Settings} (hsql : s.monitorSql = true) (l : Ledger) {h : Happening}
    (hcleared : h ≠ .cleared) :
    (l.note s h).statements =
      countAll l.statements (h.statement?.toList.map (StatementCall.increment s)) := by
  cases h with
  | statement c =>
    simp only [note, if_pos hsql]
    rfl
  | connect c =>
    simp only [note]
    split <;> rfl
  | transfer c =>
    simp only [note]
    split
    · split
      · rw [append_frame]
        rfl
      · rfl
    · rfl
  | closing stream id =>
    rw [note, flush_frame]
    rfl
  | cleared => exact absurd rfl hcleared

end Ledger

/-- What a statement expectation selects depends on the identity alone. -/
theorem StatementId.selected_congr (kind : StatementKind) (scope : Scope) (creator : Thread)
    (k k' : StatementId) (h : (k == k') = true) :
    (kind.covers k.kind && scope.selects k.owner creator) =
      (kind.covers k'.kind && scope.selects k'.owner creator) := by
  have hkey := StatementId.beq_iff.1 h
  simp only [StatementId.key, Prod.mk.injEq] at hkey
  obtain ⟨-, hkind, howner, -⟩ := hkey
  rw [hkind, scope.selects_congr howner]

/-- What a statement expectation finds is read off the statements that it selects. -/
theorem Finding.evaluate_selected {e : Expectation} {kind : StatementKind}
    (h : e.target = .statements kind) (o : Observation) :
    evaluate e o =
      let selected := o.selectedStatements kind e.threads
      let observed := sumWords (selected.map fun row => row.2.operations)
      let rows := sumWords (selected.map fun row => row.2.rows)
      { expectation := e
        observed := observed
        rows := some rows
        events := (selected.map Observation.statementEvent).mergeSort fun a b => (a.order b).isLE
        failure := failureOf e observed (some rows) } := by
  unfold evaluate
  rw [h]

/-- The numbers of a statement expectation are sums over what it selects. -/
theorem Finding.evaluate_statements {e : Expectation} {kind : StatementKind}
    (h : e.target = .statements kind) (o : Observation) :
    (Finding.evaluate e o).observed =
        sumWords ((o.selectedStatements kind e.threads).map fun row => row.2.operations) ∧
      (Finding.evaluate e o).rows =
        some (sumWords ((o.selectedStatements kind e.threads).map fun row => row.2.rows)) := by
  rw [evaluate_selected h]
  exact ⟨rfl, rfl⟩

namespace Application

variable {σ : Type}

/-- The statement counters after a run. -/
theorem run_statements (a : Application σ) {actions : List (Action σ)}
    (hsql : a.tap.settings.monitorSql = true) (hclear : Action.clear ∉ actions) :
    (a.run actions).tap.ledger.statements =
      Ledger.countAll a.tap.ledger.statements
        ((a.statements actions).map (StatementCall.increment a.tap.settings)) := by
  rw [← Ledger.content_statements, run_ledger]
  exact Ledger.noteAll_counters (fun l _ => Ledger.note_statements hsql l) _
    (a.cleared_notMem hclear)

/-- What a window that began after `before` shows of the statement counters. -/
theorem observe_statements (a : Application σ) (before after : List (Action σ)) {s : Spy}
    (hsql : a.tap.settings.monitorSql = true)
    (hbegins : s.BeginsAt (a.run before).tap.ledger) (hclear : Action.clear ∉ after) :
    (s.observe (a.run (before ++ after)).tap.ledger).statements =
      Baseline.gains
        (Ledger.countAll (a.run before).tap.ledger.statements
          (((a.run before).statements after).map (StatementCall.increment a.tap.settings)))
        (a.run before).tap.ledger.statements := by
  have hsettings : (a.run before).tap.settings = a.tap.settings := a.run_settings before
  have hnow := (a.run before).run_statements (hsettings ▸ hsql) hclear
  rw [hsettings] at hnow
  rw [run_append, ← hnow, Spy.observe, hbegins.baseline]
  rfl

/-- Over the statements that an expectation selects in a window, a quantity adds up to what the
statements that are asked for added. -/
theorem sum_selectedStatements (a : Application σ) (before after : List (Action σ)) {s : Spy}
    (hsql : a.tap.settings.monitorSql = true)
    (hbegins : s.BeginsAt (a.run before).tap.ledger) (hclear : Action.clear ∉ after)
    (hfits : Ledger.Fits (a.run before).tap.ledger.statements
      (((a.run before).statements after).map (StatementCall.increment a.tap.settings)))
    (kind : StatementKind) (scope : Scope) (x : Stats.Field) :
    (((s.observe (a.run (before ++ after)).tap.ledger).selectedStatements kind scope).map
        fun row => (row.2.get x).toNat).sum =
      (((a.run before).selectedStatements after kind scope s.creator).map fun c =>
        c.gain x).sum := by
  have honce := StatementCall.eachOnce_increments a.tap.settings ((a.run before).statements after)
  have hobserve := a.observe_statements before after hsql hbegins hclear
  have hrows := Baseline.filter_counted hfits honce fun k =>
    kind.covers k.kind && scope.selects k.owner s.creator
  have hsum := Baseline.sum_gains hfits honce
    (StatementId.selected_congr kind scope s.creator) x
  rw [← hrows, ← hobserve] at hsum
  simp only [← Bool.and_assoc] at hsum
  refine Eq.trans hsum ?_
  rw [List.filter_map, List.map_map]
  rfl

/-- **A window counts the statements that were made in it.**  Let a spy be opened or reset after
some actions, let others follow that do not clear the ledger, and let no counter and none of the
two sums wrap.  Then a statement expectation observes as many statements as were made since by the
threads and of the kind that it asks for, and as many rows as their answers had. -/
theorem statement_window_exact (a : Application σ) (before after : List (Action σ)) (s : Spy)
    (e : Expectation) (kind : StatementKind) (hsql : a.tap.settings.monitorSql = true)
    (hbegins : s.BeginsAt (a.run before).tap.ledger) (hopen : s.closed = false)
    (hclear : Action.clear ∉ after) (htarget : e.target = .statements kind)
    (hfits : Ledger.Fits (a.run before).tap.ledger.statements
      (((a.run before).statements after).map (StatementCall.increment a.tap.settings)))
    (hcount : ((a.run before).selectedStatements after kind e.threads s.creator).length < 2 ^ 64)
    (hrows : (((a.run before).selectedStatements after kind e.threads s.creator).map
      StatementCall.rows).sum < 2 ^ 64) :
    ∃ f : Finding, s.Yields (a.run (before ++ after)).tap.ledger e f ∧
      f.observed.toNat =
        ((a.run before).selectedStatements after kind e.threads s.creator).length ∧
      f.rows.map UInt64.toNat =
        some (((a.run before).selectedStatements after kind e.threads s.creator).map
          StatementCall.rows).sum := by
  have hsum := a.sum_selectedStatements before after hsql hbegins hclear hfits kind e.threads
  have hoperations := hsum .operations
  have hlength : (((a.run before).selectedStatements after kind e.threads s.creator).map
      fun c => c.gain .operations).sum =
        ((a.run before).selectedStatements after kind e.threads s.creator).length := by
    simp [StatementCall.gain]
  rw [hlength] at hoperations
  obtain ⟨hobserved, hfound⟩ :=
    Finding.evaluate_statements htarget (s.observe (a.run (before ++ after)).tap.ledger)
  refine ⟨s.finding (a.run (before ++ after)).tap.ledger e, Spy.yields_finding hopen _ e, ?_, ?_⟩
  · rw [Spy.finding, hobserved, toNat_sum_words]
    · rw [List.map_map]
      exact hoperations
    · rw [List.map_map]
      exact lt_of_eq_of_lt hoperations hcount
  · rw [Spy.finding, hfound, Option.map_some, toNat_sum_words]
    · rw [List.map_map]
      exact congrArg some (hsum .rows)
    · rw [List.map_map]
      exact lt_of_eq_of_lt (hsum .rows) hrows

/-- A statement before a window. -/
def insertOne : List (Action Unit) :=
  [.execute (ε := String) ⟨⟨1, none⟩, "shop:1"⟩ "insert into t values (1)" fun s => (.ok 1, s)]

/-- Statements in a window: two with one normal form, of which the second fails, one by another
thread, and a driver call. -/
def selectTwice : List (Action Unit) :=
  [.query (ρ := Unit) (ε := String) ⟨⟨1, none⟩, "shop:2"⟩ "select * from t where id in (?, ?)"
      fun s => (.ok [(), ()], s),
    .query (ρ := Unit) (ε := String) ⟨⟨1, none⟩, "shop:2"⟩ "select * from t where id in (?, ?, ?)"
      fun s => (.error "lost", s),
    .query (ρ := Unit) (ε := String) ⟨⟨2, none⟩, "shop:2"⟩ "select 1" fun s => (.ok [()], s),
    .systemCall (α := Unit) (ε := String) ⟨⟨1, none⟩, "shop:3"⟩ "commit" fun s => (.ok (), s)]

/-- Of these the thread that opened the window made two that select, and they had two rows. -/
theorem statement_window_exact_selectTwice :
    ∃ f : Finding,
      (Spy.begin ⟨1, none⟩ (ticking.run insertOne).tap.ledger).Yields
        (ticking.run (insertOne ++ selectTwice)).tap.ledger
        { target := .statements .select, count := .exact 2, rows := none, threads := .current } f ∧
      f.observed.toNat = 2 ∧ f.rows.map UInt64.toNat = some 2 := by
  have hfits : Ledger.Fits (ticking.run insertOne).tap.ledger.statements
      (((ticking.run insertOne).statements selectTwice).map
        (StatementCall.increment ticking.tap.settings)) := by
    rw [ticking.run_statements rfl (by simp [insertOne])]
    refine Ledger.fits_of_sum_lt fun x => ?_
    cases x <;> decide +kernel
  exact ticking.statement_window_exact insertOne selectTwice
    (Spy.begin ⟨1, none⟩ (ticking.run insertOne).tap.ledger)
    { target := .statements .select, count := .exact 2, rows := none, threads := .current } .select
    rfl (.begin ⟨1, none⟩) rfl (by simp [selectTwice]) rfl hfits (by decide) (by decide)

end Application

end Wiretap
