import Wiretap.Proofs.Window
import Wiretap.Proofs.Window.Traversals
/-!
# The life of a spy

A spy is used beside an application: calls on the spy and actions of the application come in any
order, and the spy reads the ledger that the application has come to (`Watch`).  Each call goes
through the tables of the ledger in an order of its own.

The life of the spy has two parts.  While it is open its expectations are those that were
registered so far, and it has no findings; the call that closes it holds each of them against the
window, just as trying it at that moment would (`OpenUpTo`, `Closes`).  Trying it may go through the
tables in another order than closing does, so the two findings are alike, and equal if the order is
the same.  From then on the spy is the same for good, whatever the application does and whatever is
asked of the spy (`Settled`).

The invariant of the first part is `OpenUpTo`, with one case for each call; the second part rests
on the fact that no call changes a closed spy.
-/

namespace Wiretap

namespace Spy

/-- What may be asked of a spy. -/
inductive Call where
  | add (e : Expectation)
  /-- Adds an expectation and hands the spy back. -/
  | expecting (e : Expectation)
  | verify (e : Expectation)
  | reset
  | close
  | executedStatements (scope : Scope) (removeTraces : Bool)
  | statementCount (kind : StatementKind) (scope : Scope)
  | socketOperations (scope : Scope) (matcher : AddressMatcher) (removeTraces : Bool)
  | networkTraffic (scope : Scope) (matcher : AddressMatcher) (grouping : Grouping)
  | expectations
  | findings
  | isClosed

/-- What a spy gives back. -/
inductive Answer where
  /-- The spy itself. -/
  | chained
  /-- Done, or why not. -/
  | outcome (result : Except SpyError Unit)
  /-- What the expectations that fail come to, if any do. -/
  | held (failed : Option Violation)
  | statements (found : Table StatementId Stats)
  | count (n : UInt64)
  | sockets (found : Table ConnectionId Stats)
  | traffic (groups : List (GroupKey × List Packet))
  | expectations (es : List Expectation)
  | findings (fs : List Finding)
  | closed (b : Bool)

/-- Whether a call only asks: it tries an expectation or reads. -/
def Call.asks : Call → Bool
  | .add _ | .expecting _ | .reset | .close => false
  | _ => true

/-- The expectation that a call registers on an open spy. -/
def Call.registers? : Call → Option Expectation
  | .add e | .expecting e => some e
  | _ => none

/-- A change that may fail; the spy stays as it was where it does. -/
def change (s : Spy) : Except SpyError Spy → Answer × Spy
  | .ok s' => (.outcome (.ok ()), s')
  | .error e => (.outcome (.error e), s)

/-- What a call gives back, and the spy after it, at a moment at which the ledger is `l`. -/
def call (s : Spy) (l : Ledger) : Call → Answer × Spy
  | .add e => s.change (s.add e)
  | .expecting e => (.chained, s.expecting e)
  | .verify e => (.outcome (s.verify l e), s)
  | .reset => s.change (s.reset l)
  | .close => (.held (s.close l).1, (s.close l).2)
  | .executedStatements scope removeTraces =>
    (.statements (s.executedStatements l scope removeTraces), s)
  | .statementCount kind scope => (.count (s.statementCount l kind scope), s)
  | .socketOperations scope matcher removeTraces =>
    (.sockets (s.socketOperations l scope matcher removeTraces), s)
  | .networkTraffic scope matcher grouping =>
    (.traffic (s.networkTraffic l scope matcher grouping), s)
  | .expectations => (.expectations s.expectations, s)
  | .findings => (.findings s.findings, s)
  | .isClosed => (.closed s.closed, s)

/-- A spy that is open, with the expectations `es` on it. -/
structure OpenUpTo (s : Spy) (es : List Expectation) : Prop where
  closed : s.closed = false
  expectations : s.expectations = es
  findings : s.findings = []

/-- Asking changes nothing. -/
theorem call_of_asks (s : Spy) (l : Ledger) {c : Call} (h : c.asks = true) :
    (s.call l c).2 = s := by
  cases c with
  | add e => cases h
  | expecting e => cases h
  | reset => cases h
  | close => cases h
  | _ => rfl

/-- **One call on an open spy.**  Every call but the one that closes it leaves it open, with the
expectation that the call registers put behind the others. -/
theorem OpenUpTo.call {s : Spy} {es : List Expectation} (h : s.OpenUpTo es) (l : Ledger) {c : Call}
    (hc : c ≠ .close) : (s.call l c).2.OpenUpTo (es ++ c.registers?.toList) := by
  obtain ⟨hclosed, hes, hfindings⟩ := h
  have hadd : ∀ e, s.add e = .ok { s with expectations := es ++ [e] } := by
    intro e
    rw [add, hclosed, if_neg Bool.false_ne_true, hes]
  cases c with
  | add e =>
    have hcall : (s.call l (.add e)).2 = { s with expectations := es ++ [e] } := by
      rw [Spy.call, hadd]
      rfl
    rw [hcall]
    exact ⟨hclosed, rfl, hfindings⟩
  | expecting e =>
    have hcall : (s.call l (.expecting e)).2 = { s with expectations := es ++ [e] } := by
      rw [Spy.call, expecting, hadd]
      rfl
    rw [hcall]
    exact ⟨hclosed, rfl, hfindings⟩
  | reset =>
    have hcall : (s.call l .reset).2 = { s with baseline := .of l } := by
      rw [Spy.call, reset, hclosed, if_neg Bool.false_ne_true]
      rfl
    rw [hcall]
    exact ⟨hclosed, hes.trans (List.append_nil es).symm, hfindings⟩
  | close => exact absurd rfl hc
  | _ => exact ⟨hclosed, hes.trans (List.append_nil es).symm, hfindings⟩

/-- Closing closes. -/
theorem close_closed (s : Spy) (l : Ledger) : (s.close l).2.closed = true := by
  unfold close
  split
  · assumption
  · rfl

/-- **One call on a closed spy** changes nothing. -/
theorem call_of_closed {s : Spy} (h : s.closed = true) (l : Ledger) (c : Call) :
    (s.call l c).2 = s := by
  cases c with
  | add e =>
    rw [call, add, if_pos h]
    rfl
  | expecting e =>
    rw [call, expecting, add, if_pos h]
    rfl
  | reset =>
    rw [call, reset, if_pos h]
    rfl
  | close =>
    rw [call, close, if_pos h]
  | _ => rfl

end Spy

/-- A spy, and the application that goes on beside it. -/
structure Watch (σ : Type) where
  spy : Spy
  app : Application σ

/-- What comes next: something is asked of the spy, which reads the ledger in some order for it, or
the application does something. -/
inductive Watch.Move (σ : Type) : Type 1 where
  | call (c : Spy.Call) (t : Traversal)
  | act (action : Action σ)

namespace Watch

variable {σ : Type}

/-- The expectation that a move registers on an open spy. -/
def Move.registers? : Move σ → Option Expectation
  | .call c _ => c.registers?
  | .act _ => none

/-- Whether a move closes an open spy. -/
def Move.closes : Move σ → Bool
  | .call .close _ => true
  | _ => false

/-- A spy that begins now, going by a traversal. -/
def begin (creator : Thread) (t : Traversal) (app : Application σ) : Watch σ :=
  ⟨Spy.begin creator (t.of app.tap.ledger), app⟩

/-- What the spy would give back now, going by a traversal. -/
def answer (w : Watch σ) (t : Traversal) (c : Spy.Call) : Spy.Answer :=
  (w.spy.call (t.of w.app.tap.ledger) c).1

/-- What an expectation comes to now, going by a traversal. -/
def finding (w : Watch σ) (t : Traversal) (e : Expectation) : Finding :=
  w.spy.finding (t.of w.app.tap.ledger) e

/-- What comes after a move. -/
def move (w : Watch σ) : Move σ → Watch σ
  | .call c t => { w with spy := (w.spy.call (t.of w.app.tap.ledger) c).2 }
  | .act action => { w with app := w.app.perform action }

/-- What comes after moves one after another. -/
def after (w : Watch σ) (moves : List (Move σ)) : Watch σ := moves.foldl move w

theorem after_append (w : Watch σ) (first second : List (Move σ)) :
    w.after (first ++ second) = (w.after first).after second :=
  List.foldl_append

/-- **What closing the spy now comes to**, with the expectations `es` registered on it.  Every
expectation has its finding, in the order in which they were registered, and the call fails with
those that did not pass, if there are any.  What `verify` would report now is the very finding if it
goes by the same traversal, and one that is alike whatever the traversal it goes by. -/
structure Closes (w : Watch σ) (es : List Expectation) : Prop where
  closed : ∀ t, (w.move (.call .close t)).spy.closed = true
  findings : ∀ t, (w.move (.call .close t)).spy.findings = es.map (w.finding t)
  verify : ∀ t e, w.answer t (.verify e) =
    .outcome (if (w.finding t e).passed then .ok () else .error (.violated ⟨[w.finding t e]⟩))
  alike : ∀ t t' e,
    (w.finding t e).Alike (w.spy.observe w.app.tap.ledger) (w.finding t' e)
  answer : ∀ t, w.answer t .close = .held
    (if ∀ e ∈ es, (w.finding t e).passed = true then none
      else some ⟨(es.map (w.finding t)).filter fun f => !f.passed⟩)

/-- **What a closed spy gives back.**  Closing it again finds nothing wrong, what would change it
is refused, and no call changes it. -/
structure Settled (w : Watch σ) : Prop where
  close : ∀ t, w.answer t .close = .held none
  add : ∀ t e, w.answer t (.add e) = .outcome (.error .closed)
  verify : ∀ t e, w.answer t (.verify e) = .outcome (.error .closed)
  reset : ∀ t, w.answer t .reset = .outcome (.error .closed)
  keeps : ∀ t c, w.move (.call c t) = w

/-- One move on an open spy, whichever it is but the closing one. -/
theorem openUpTo_move {w : Watch σ} {es : List Expectation} (h : w.spy.OpenUpTo es) {m : Move σ}
    (hm : ¬ m.closes = true) : (w.move m).spy.OpenUpTo (es ++ m.registers?.toList) := by
  cases m with
  | call c t =>
    refine h.call (t.of w.app.tap.ledger) ?_
    rintro rfl
    exact hm rfl
  | act action =>
    rw [Move.registers?, Option.toList_none, List.append_nil]
    exact h

/-- Up to the closing call the spy is open and has the expectations that were registered. -/
theorem openUpTo_after {w : Watch σ} {es : List Expectation} (h : w.spy.OpenUpTo es)
    {moves : List (Move σ)} (hmoves : ∀ m ∈ moves, ¬ m.closes = true) :
    (w.after moves).spy.OpenUpTo (es ++ moves.filterMap Move.registers?) := by
  induction moves generalizing w es with
  | nil =>
    rw [List.filterMap_nil, List.append_nil]
    exact h
  | cons m rest ih =>
    obtain ⟨hm, hrest⟩ := List.forall_mem_cons.1 hmoves
    have hlater := ih (openUpTo_move h hm) hrest
    have hregistered : (m :: rest).filterMap Move.registers? =
        m.registers?.toList ++ rest.filterMap Move.registers? := by
      cases hr : m.registers? with
      | none => rw [List.filterMap_cons_none hr, Option.toList_none, List.nil_append]
      | some e => rw [List.filterMap_cons_some hr, Option.toList_some, List.singleton_append]
    rw [hregistered, ← List.append_assoc]
    exact hlater

/-- No move changes a closed spy. -/
theorem spy_move_of_closed {w : Watch σ} (h : w.spy.closed = true) (m : Move σ) :
    (w.move m).spy = w.spy := by
  cases m with
  | call c t => exact Spy.call_of_closed h _ c
  | act action => rfl

/-- A closed spy is the same for good. -/
theorem spy_after_of_closed {w : Watch σ} (h : w.spy.closed = true) (moves : List (Move σ)) :
    (w.after moves).spy = w.spy := by
  induction moves generalizing w with
  | nil => rfl
  | cons m rest ih =>
    have hsame := spy_move_of_closed h m
    have hclosed : (w.move m).spy.closed = true := by
      rw [hsame]
      exact h
    exact (ih hclosed).trans hsame

/-- The spy is closed once a closing call was among the moves, and not before. -/
theorem closed_after_iff {w : Watch σ} {es : List Expectation} (h : w.spy.OpenUpTo es)
    (moves : List (Move σ)) :
    (w.after moves).spy.closed = true ↔ ∃ m ∈ moves, m.closes = true := by
  constructor
  · intro hclosed
    by_contra hnone
    have hopen := (openUpTo_after h fun m hm hcloses => hnone ⟨m, hm, hcloses⟩).closed
    rw [hopen] at hclosed
    cases hclosed
  · rintro ⟨m, hm, hcloses⟩
    obtain ⟨before, later, rfl⟩ := List.append_of_mem hm
    have hmoved : ((w.after before).move m).spy.closed = true := by
      cases m with
      | call c t =>
        cases c with
        | close => exact Spy.close_closed _ _
        | _ => cases hcloses
      | act action => cases hcloses
    rw [after_append]
    show ((((w.after before).move m).after later)).spy.closed = true
    rw [spy_after_of_closed hmoved]
    exact hmoved

/-- Whether findings all pass or not decides what they come to. -/
theorem among_map (w : Watch σ) (t : Traversal) (es : List Expectation) :
    Violation.among (es.map (w.finding t)) =
      if ∀ e ∈ es, (w.finding t e).passed = true then none
      else some ⟨(es.map (w.finding t)).filter fun f => !f.passed⟩ := by
  have hnone : (es.map (w.finding t)).filter (fun f => !f.passed) = [] ↔
      ∀ e ∈ es, (w.finding t e).passed = true := by
    simp [List.filter_eq_nil_iff]
  unfold Violation.among
  split
  · rename_i hfailed
    rw [if_pos (hnone.1 hfailed)]
  · rename_i hfailed
    rw [if_neg fun hall => hfailed (hnone.2 hall)]

/-- A spy that is open up to some expectations closes with them. -/
theorem closes_of_openUpTo {w : Watch σ} {es : List Expectation} (h : w.spy.OpenUpTo es) :
    w.Closes es := by
  obtain ⟨hclosed, rfl, -⟩ := h
  have hclose : ∀ t : Traversal, w.spy.close (t.of w.app.tap.ledger) =
      (Violation.among (w.spy.expectations.map (w.finding t)),
        { w.spy with closed := true, findings := w.spy.expectations.map (w.finding t) }) := by
    intro t
    rw [Spy.close, hclosed, if_neg Bool.false_ne_true]
    rfl
  refine ⟨?_, ?_, ?_, ?_, ?_⟩
  · intro t
    exact w.spy.close_closed _
  · intro t
    show (w.spy.close (t.of w.app.tap.ledger)).2.findings = _
    rw [hclose]
  · intro t e
    show Spy.Answer.outcome (w.spy.verify (t.of w.app.tap.ledger) e) = _
    rw [(Spy.yields_finding hclosed (t.of w.app.tap.ledger) e).verify]
    rfl
  · intro t t' e
    exact w.spy.finding_alike w.app.tap.ledger t t' e
  · intro t
    show Spy.Answer.held (w.spy.close (t.of w.app.tap.ledger)).1 = _
    rw [hclose, among_map]

theorem settled_of_closed {w : Watch σ} (h : w.spy.closed = true) : w.Settled := by
  refine ⟨?_, ?_, ?_, ?_, ?_⟩
  · intro t
    rw [answer, Spy.call, Spy.close, if_pos h]
  · intro t e
    rw [answer, Spy.call, Spy.add, if_pos h]
    rfl
  · intro t e
    rw [answer, Spy.call, Spy.verify, if_pos h]
  · intro t
    rw [answer, Spy.call, Spy.reset, if_pos h]
    rfl
  · intro t c
    rw [move, Spy.call_of_closed h]

/-- Some of the first moves is a closing one once the first such move is among them. -/
theorem exists_take_iff (moves : List (Move σ)) {i : Nat} (hi : i ≤ moves.length) :
    (∃ m ∈ moves.take i, m.closes = true) ↔ moves.findIdx Move.closes < i := by
  rw [← List.findIdx_lt_length, List.findIdx_take, List.length_take]
  omega

/-- **The life of a spy.**  A spy is opened on any application, and any calls on it and any actions
of the application, which may do I/O and clear the ledger, come after that in any order.  Every call
may read the ledger in an order of its own.

* The spy is open up to some moment of the run and closed after it.
* Asking changes nothing, and at no moment does a call on the spy touch the application.
* As long as the spy is open, closing it keeps a finding for each registered expectation and fails
  with those that did not pass, if there are any.  What `verify` would find now is equal to that, up
  to the order among events of one description and the identity that stands for a connection.
* As soon as the spy is closed, nothing is going to change it, closing it again is no failure, and
  adding, trying and moving the window are refused. -/
theorem life_of_a_spy (creator : Thread) (opening : Traversal) (app : Application σ)
    (moves : List (Move σ)) :
    (∃ n, ∀ i ≤ moves.length,
      (((begin creator opening app).after (moves.take i)).spy.closed = true ↔ n < i)) ∧
    (∀ (c : Spy.Call) (t : Traversal),
      (((begin creator opening app).after moves).move (.call c t)).app =
        ((begin creator opening app).after moves).app ∧
      (c.asks = true → ((begin creator opening app).after moves).move (.call c t) =
        (begin creator opening app).after moves)) ∧
    (((begin creator opening app).after moves).spy.closed = false →
      ((begin creator opening app).after moves).Closes (moves.filterMap Move.registers?)) ∧
    (((begin creator opening app).after moves).spy.closed = true →
      ∀ later, (((begin creator opening app).after moves).after later).spy =
          ((begin creator opening app).after moves).spy ∧
        (((begin creator opening app).after moves).after later).Settled) := by
  have hbegin : (begin creator opening app).spy.OpenUpTo [] := ⟨rfl, rfl, rfl⟩
  refine ⟨?_, ?_, ?_, ?_⟩
  · refine ⟨moves.findIdx Move.closes, fun i hi => ?_⟩
    rw [closed_after_iff hbegin, exists_take_iff moves hi]
  · intro c t
    refine ⟨rfl, fun hasks => ?_⟩
    rw [move, Spy.call_of_asks _ _ hasks]
  · intro hopen
    have hmoves : ∀ m ∈ moves, ¬ m.closes = true := by
      intro m hm hcloses
      have hclosed := (closed_after_iff hbegin moves).2 ⟨m, hm, hcloses⟩
      rw [hopen] at hclosed
      cases hclosed
    exact closes_of_openUpTo (openUpTo_after hbegin hmoves)
  · intro hclosed later
    have hsame := spy_after_of_closed hclosed later
    refine ⟨hsame, settled_of_closed ?_⟩
    rw [hsame]
    exact hclosed

/-- A window in which a connection is opened and two threads execute one statement, with two
expectations on it. -/
def expectTwo : List (Move Unit) :=
  [.call (.expecting
      { target := .connections {}, count := .exact 1, rows := none, threads := .any }) .asMade,
    .act (.connect (α := Unit) (ε := String) ⟨⟨1, none⟩, "shop:1"⟩ ⟨"db", 5432⟩ fun s =>
      (.ok (), s)),
    .act (.query (ρ := Unit) (ε := String) ⟨⟨1, none⟩, "shop:2"⟩ "select 1" fun s => (.ok [], s)),
    .act (.query (ρ := Unit) (ε := String) ⟨⟨2, none⟩, "shop:2"⟩ "select 1" fun s => (.ok [], s)),
    .call (.add
      { target := .statements .any, count := .exact 1, rows := none, threads := .any }) .asMade]

/-- The ledger is cleared, and an expectation comes too late. -/
def clearAndExpect : List (Move Unit) :=
  [.act .clear,
    .call (.expecting
      { target := .connections {}, count := .exact 0, rows := none, threads := .any }) .asMade]

/-- There are one connection and two executions, so the second expectation fails.  The two have one
description, and another traversal tells of them the other way round.  What was found when the spy
was closed is still what was found when the ledger knows of no connection any more. -/
theorem life_of_a_spy_expectTwo :
    let opened := (begin ⟨1, none⟩ .asMade Application.ticking).after expectTwo
    let late := ((begin ⟨1, none⟩ .asMade Application.ticking).after
      (expectTwo ++ [.call .close .backwards])).after clearAndExpect
    let e : Expectation :=
      { target := .statements .any, count := .exact 1, rows := none, threads := .any }
    opened.Closes (expectTwo.filterMap Move.registers?) ∧
      opened.answer .backwards .close ≠ .held none ∧
      (opened.finding .asMade e).events.map (·.thread.id) = [1, 2] ∧
      (opened.finding .backwards e).events.map (·.thread.id) = [2, 1] ∧
      late.spy.findings.map Finding.passed = [true, false] ∧
      late.answer .asMade .close = .held none := by
  intro opened late e
  obtain ⟨-, -, hcloses, -⟩ := life_of_a_spy ⟨1, none⟩ .asMade Application.ticking expectTwo
  have hclosing := hcloses rfl
  obtain ⟨-, -, -, hsettled⟩ := life_of_a_spy ⟨1, none⟩ .asMade Application.ticking
    (expectTwo ++ [.call .close .backwards])
  obtain ⟨hspy, hlater⟩ := hsettled rfl clearAndExpect
  have hfailed : ¬ ∀ e ∈ expectTwo.filterMap Move.registers?,
      (opened.finding .backwards e).passed = true := by
    decide +kernel
  refine ⟨hclosing, ?_, ?_, ?_, ?_, hlater.close .asMade⟩
  · rw [hclosing.answer, if_neg hfailed]
    intro h
    cases h
  · rw [finding, Spy.finding, Finding.events_of_pairwise rfl (by decide +kernel)]
    decide +kernel
  · rw [finding, Spy.finding, Finding.events_of_pairwise rfl (by decide +kernel)]
    decide +kernel
  · have hfindings : late.spy.findings =
        (expectTwo.filterMap Move.registers?).map (opened.finding .backwards) := by
      rw [← hclosing.findings]
      exact congrArg Spy.findings hspy
    rw [hfindings]
    decide +kernel

end Watch

end Wiretap
