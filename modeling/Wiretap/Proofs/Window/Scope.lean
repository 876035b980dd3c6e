import Wiretap.Spy.Scope
import Wiretap.Proofs.Window.LifeCycle
import Wiretap.Proofs.Window.Statements
import Wiretap.Proofs.Window.Connections
/-!
# A body inside a window

A spy that is handed a body closes when the body is done.  Two things may then have gone wrong: the
body, which may fail or panic, and the expectations.  What went wrong first is what is told.  A
violation never stands in the way of the body's own failure, and the body's failure never keeps the
spy from being closed.

* `RunsTo` and `ExecutesTo` say what comes of a scope, given how its body ended and what the
  expectations came to right after it.
* `Spy.ClosedBy` says what is left of the spy: it was closed at that moment, and neither closing nor
  dropping it verifies anything again.
* `Spy.TakesIn` says that what the body did is in the window that was verified.

A **body** uses an application.  What it does next may depend on what it was answered, but answers
come from the outside, whose state is part of the application; so the application that a body finds
decides all that it does and how it ends (`Body`).
-/

namespace Wiretap

/-- A body that uses an application. -/
structure Body (σ : Type) (ω : Type) where
  /-- What the body does in the application that it finds. -/
  actions : Application σ → List (Action σ)
  /-- How the body ends. -/
  ending : Application σ → ω

/-- The ending of a body, and the application that it leaves. -/
def Body.play {σ ω : Type} (b : Body σ ω) (a : Application σ) : ω × Application σ :=
  (b.ending a, a.run (b.actions a))

theorem Body.play_fst {σ ω : Type} (b : Body σ ω) (a : Application σ) :
    (b.play a).1 = b.ending a := rfl

/-- The application that a body leaves, where the body finds one that has run before. -/
theorem Body.play_snd {σ ω : Type} (b : Body σ ω) (a : Application σ)
    (before between : List (Action σ)) :
    (b.play (a.run (before ++ between))).2 =
      a.run (before ++ (between ++ b.actions (a.run (before ++ between)))) := by
  rw [← List.append_assoc, Application.run_append a (before ++ between)]
  rfl

/-- What comes of a body that can return or panic, where `failures` is what the expectations came
to. -/
structure RunsTo {α : Type u} (ending : Ending α) (failures : Option Violation)
    (outcome : RunEnding α) : Prop where
  value : ∀ v, outcome = .value v ↔ ending = .value v ∧ failures = none
  violated : ∀ violation, outcome = .violated violation ↔
    (∃ v, ending = .value v) ∧ failures = some violation
  /-- The panic goes on as it came, whatever the expectations came to. -/
  panic : ∀ payload, outcome = .panic payload ↔ ending = .panic payload

/-- What comes of a body that can also fail. -/
structure ExecutesTo {ε : Type v} {α : Type u} (ending : Ending (Except ε α))
    (failures : Option Violation) (outcome : Ending (Except (ScopeError ε) α)) : Prop where
  value : ∀ v, outcome = .value (.ok v) ↔ ending = .value (.ok v) ∧ failures = none
  violated : ∀ violation, outcome = .value (.error (.violated violation)) ↔
    (∃ v, ending = .value (.ok v)) ∧ failures = some violation
  /-- The body's own error is told, and what the expectations came to is kept beside it. -/
  body : ∀ error suppressed, outcome = .value (.error (.body error suppressed)) ↔
    ending = .value (.error error) ∧ suppressed = failures
  panic : ∀ payload, outcome = .panic payload ↔ ending = .panic payload

namespace Spy

/-- A spy that was closed at a moment at which the ledger was `l`, once and for all. -/
structure ClosedBy (s : Spy) (l : Ledger) (after : Spy) : Prop where
  spy : after = (s.close l).2
  closed : after.closed = true
  findings : after.findings = s.expectations.map (s.finding l)
  close : ∀ later, after.close later = (none, after)
  drop : ∀ later unwinding, after.drop later unwinding = none

theorem closedBy_close {s : Spy} (hopen : s.closed = false) (l : Ledger) :
    s.ClosedBy l (s.close l).2 := by
  have hclosed := s.close_closed l
  refine ⟨rfl, hclosed, ?_, ?_, ?_⟩
  · rw [close, hopen, if_neg Bool.false_ne_true]
    rfl
  · intro later
    rw [close, if_pos hclosed]
  · intro later unwinding
    rw [drop, close, if_pos hclosed]
    exact ite_self none

/-- A drop fails as closing does, but not while another panic is under way. -/
theorem drop_eq_some_iff (s : Spy) (l : Ledger) (unwinding : Bool) (violation : Violation) :
    s.drop l unwinding = some violation ↔ (s.close l).1 = some violation ∧ unwinding = false := by
  cases unwinding with
  | true =>
    constructor
    · intro h
      cases h
    · rintro ⟨-, h⟩
      cases h
  | false => exact (and_iff_left rfl).symm

section Bodies

variable {σ : Type w} {α : Type u} {ε : Type v}

/-- What is left of a scope: the spy as the body's end closed it, and the state that the body
left. -/
theorem run_snd (s : Spy) (ledgerOf : σ → Ledger) (body : σ → Ending α × σ) (state : σ) :
    (s.run ledgerOf body state).2 = ((s.close (ledgerOf (body state).2)).2, (body state).2) := by
  rw [run]
  obtain ⟨ending, left⟩ := body state
  cases ending with
  | panic payload => rfl
  | value v =>
    rcases hclose : s.close (ledgerOf left) with ⟨failures, closed⟩
    cases failures <;> simp only [hclose]

theorem run_runsTo (s : Spy) (ledgerOf : σ → Ledger) (body : σ → Ending α × σ) (state : σ) :
    RunsTo (body state).1 (s.close (ledgerOf (body state).2)).1 (s.run ledgerOf body state).1 := by
  rw [run]
  obtain ⟨ending, left⟩ := body state
  rcases hclose : s.close (ledgerOf left) with ⟨failures, closed⟩
  cases ending with
  | panic payload =>
    constructor <;> simp
  | value v =>
    cases failures with
    | none => constructor <;> simp [hclose]
    | some violation => constructor <;> simp [hclose]

/-- However its body ends, the spy is closed over what the body left. -/
theorem executeOrUnwind_snd (s : Spy) (ledgerOf : σ → Ledger)
    (body : σ → Ending (Except ε α) × σ) (state : σ) :
    (s.executeOrUnwind ledgerOf body state).2 =
      ((s.close (ledgerOf (body state).2)).2, (body state).2) := by
  rw [executeOrUnwind]
  obtain ⟨ending, left⟩ := body state
  cases ending with
  | panic payload => rfl
  | value result =>
    cases result with
    | error error => rfl
    | ok v =>
      rcases hclose : s.close (ledgerOf left) with ⟨failures, closed⟩
      cases failures <;> simp only [execute, hclose]

theorem executeOrUnwind_executesTo (s : Spy) (ledgerOf : σ → Ledger)
    (body : σ → Ending (Except ε α) × σ) (state : σ) :
    ExecutesTo (body state).1 (s.close (ledgerOf (body state).2)).1
      (s.executeOrUnwind ledgerOf body state).1 := by
  rw [executeOrUnwind]
  obtain ⟨ending, left⟩ := body state
  rcases hclose : s.close (ledgerOf left) with ⟨failures, closed⟩
  cases ending with
  | panic payload => constructor <;> simp
  | value result =>
    cases result with
    | error error => constructor <;> simp [execute, hclose, eq_comm]
    | ok v =>
      cases failures with
      | none => constructor <;> simp [execute, hclose]
      | some violation => constructor <;> simp [execute, hclose]

end Bodies

/-- What an application did after `before` is in the window of a spy.

The window is verified on a ledger that has noted every happening of it, in whatever way it counts;
and where the ledger was not cleared and no counter wraps, each identity shows what was added to it
by all calls together, and no other identity shows anything. -/
structure TakesIn {σ : Type} (s : Spy) (a : Application σ) (before after : List (Action σ)) :
    Prop where
  noted : ∀ e, s.finding (a.run (before ++ after)).tap.ledger e =
    s.finding ((a.run before).tap.ledger.content.noteAll a.tap.settings
      ((a.run before).happenings after)) e
  statements : a.tap.settings.monitorSql = true → Action.clear ∉ after →
    let increments := ((a.run before).statements after).map
      (StatementCall.increment a.tap.settings)
    Ledger.Fits (a.run before).tap.ledger.statements increments →
      ∀ k, (s.observe (a.run (before ++ after)).tap.ledger).statements.get? k =
        if (increments.any fun i => i.key == k) = true then
          some (.ofGain (Increment.total increments k))
        else none
  sockets : a.tap.settings.monitorSockets = true → Action.clear ∉ after →
    let increments := ((a.run before).streamCalls after).map StreamCall.increment
    Ledger.Fits (a.run before).tap.ledger.sockets increments →
      ∀ k, (s.observe (a.run (before ++ after)).tap.ledger).sockets.get? k =
        if (increments.any fun i => i.key == k) = true then
          some (.ofGain (Increment.total increments k))
        else none

/-- A finding does not depend on the texts that are shared. -/
theorem finding_content (s : Spy) (l : Ledger) (e : Expectation) :
    s.finding l.content e = s.finding l e := rfl

theorem takesIn_of_beginsAt {σ : Type} {s : Spy} {a : Application σ} {before : List (Action σ)}
    (hbegins : s.BeginsAt (a.run before).tap.ledger) (after : List (Action σ)) :
    s.TakesIn a before after where
  noted e := by
    rw [← finding_content, Application.run_append, Application.run_ledger,
      Application.run_settings]
  statements hsql hclear := by
    intro increments hfits k
    have honce := StatementCall.eachOnce_increments a.tap.settings
      ((a.run before).statements after)
    rw [a.observe_statements before after hsql hbegins hclear]
    exact Baseline.get?_gains_countAll hfits honce k
  sockets hmonitor hclear := by
    intro increments hfits k
    have honce := (a.run before).eachOnce_streamCalls after
    rw [a.observe_sockets before after hmonitor hbegins hclear]
    exact Baseline.get?_gains_countAll hfits honce k

/-- What is left of a scope, where `after` is what was done since the window began. -/
structure Leaves {σ : Type} (s : Spy) (a : Application σ) (before after : List (Action σ))
    (left : Spy × Application σ) : Prop where
  app : left.2 = a.run (before ++ after)
  spy : s.ClosedBy (a.run (before ++ after)).tap.ledger left.1
  takesIn : s.TakesIn a before after

/-- A scope that closes the spy where the body ended leaves just that. -/
theorem leaves_of_close {σ ω : Type} {s : Spy} (hopen : s.closed = false) {a : Application σ}
    {before : List (Action σ)} (hbegins : s.BeginsAt (a.run before).tap.ledger)
    (between : List (Action σ)) (body : Body σ ω) {left : Spy × Application σ}
    (hleft : left = ((s.close (body.play (a.run (before ++ between))).2.tap.ledger).2,
      (body.play (a.run (before ++ between))).2)) :
    s.Leaves a before (between ++ body.actions (a.run (before ++ between))) left := by
  rw [body.play_snd] at hleft
  refine ⟨?_, ?_, takesIn_of_beginsAt hbegins _⟩
  · rw [hleft]
  · rw [hleft]
    exact closedBy_close hopen _

end Spy

/-- **A scope is verified once, right behind its body.**  Let a spy be open in a run that went on
since its window began, and let it be handed any body that uses the application.

* What comes of it is told by how the body ended and by what closing the spy right after the body
  comes to: with a violation alone, with the body's error and the violation beside it, or with the
  body's own panic.
* The spy is closed by that, once, and dropping it later verifies nothing; the application is left
  as the body left it; and what the body did is in the window, with what was done in it before.
* A spy that is dropped without having been closed fails as closing it would, unless a panic is
  under way. -/
theorem scope_outcome {σ : Type} (a : Application σ) (before between : List (Action σ)) (s : Spy)
    (hbegins : s.BeginsAt (a.run before).tap.ledger) (hopen : s.closed = false) :
    (∀ {α : Type} (body : Body σ (Ending α)),
      let found := a.run (before ++ between)
      let after := between ++ body.actions found
      let scope := s.run (fun a => a.tap.ledger) body.play found
      RunsTo (body.ending found) (s.close (a.run (before ++ after)).tap.ledger).1 scope.1 ∧
        s.Leaves a before after scope.2) ∧
    (∀ {ε α : Type} (body : Body σ (Ending (Except ε α))),
      let found := a.run (before ++ between)
      let after := between ++ body.actions found
      let scope := s.executeOrUnwind (fun a => a.tap.ledger) body.play found
      ExecutesTo (body.ending found) (s.close (a.run (before ++ after)).tap.ledger).1 scope.1 ∧
        s.Leaves a before after scope.2) ∧
    ∀ l unwinding violation, s.drop l unwinding = some violation ↔
      (s.close l).1 = some violation ∧ unwinding = false := by
  refine ⟨?_, ?_, s.drop_eq_some_iff⟩
  · intro α body found after scope
    have hends := s.run_runsTo (fun a => a.tap.ledger) body.play found
    rw [body.play_fst, body.play_snd] at hends
    exact ⟨hends, Spy.leaves_of_close hopen hbegins between body (s.run_snd _ body.play found)⟩
  · intro ε α body found after scope
    have hends := s.executeOrUnwind_executesTo (fun a => a.tap.ledger) body.play found
    rw [body.play_fst, body.play_snd] at hends
    exact ⟨hends, Spy.leaves_of_close hopen hbegins between body
      (s.executeOrUnwind_snd _ body.play found)⟩

namespace Application

/-- A spy that expects one selecting statement by its own thread. -/
def expectOne : Spy :=
  (Spy.begin ⟨1, none⟩ (ticking.run openOne).tap.ledger).expecting
    { target := .statements .select, count := .exact 1, rows := none, threads := .current }

/-- A body that makes two such statements. -/
def selecting {ω : Type} (ending : ω) : Body Unit ω := ⟨fun _ => selectTwice, fun _ => ending⟩

/-- The two are found, though one was expected.  Where the body fails after them, its error is told
with the violation beside it; where it panics, the panic is; and then nothing is left to verify. -/
theorem scope_outcome_selectTwice :
    (∃ violation, (expectOne.executeOrUnwind (fun a => a.tap.ledger)
      (selecting (.value (.error "lost") : Ending (Except String Unit))).play
      (ticking.run (openOne ++ insertOne))).1 =
        .value (.error (.body "lost" (some violation)))) ∧
    ∃ (spy : Spy) (left : Application Unit),
      expectOne.run (fun a => a.tap.ledger) (selecting (.panic "lost" : Ending Unit)).play
        (ticking.run (openOne ++ insertOne)) = (.panic "lost", spy, left) ∧
      spy.findings.map Finding.observed = [2] ∧ spy.drop left.tap.ledger false = none := by
  have hbegins : expectOne.BeginsAt (ticking.run openOne).tap.ledger := .add (.begin ⟨1, none⟩) rfl
  have hfails : (expectOne.close
      (ticking.run (openOne ++ (insertOne ++ selectTwice))).tap.ledger).1.isSome = true := by
    decide +kernel
  obtain ⟨violation, hviolation⟩ := Option.isSome_iff_exists.1 hfails
  obtain ⟨hrun, hexecute, -⟩ := scope_outcome ticking openOne insertOne expectOne hbegins rfl
  obtain ⟨hexecuted, -⟩ := hexecute
    (selecting (.value (.error "lost") : Ending (Except String Unit)))
  obtain ⟨hran, hleft⟩ := hrun (selecting (.panic "lost" : Ending Unit))
  refine ⟨⟨violation, ?_⟩, ?_⟩
  · exact (hexecuted.body "lost" (some violation)).2 ⟨rfl, hviolation.symm⟩
  · refine ⟨_, _, Prod.ext ((hran.panic "lost").2 rfl) rfl, ?_, hleft.spy.drop _ false⟩
    refine (congrArg (List.map Finding.observed) hleft.spy.findings).trans ?_
    decide +kernel

end Application

end Wiretap
