import Wiretap.Finding
import Wiretap.Ledger
import Wiretap.Query
import Wiretap.Traffic.Grouping
/-!
# Spies: windows on the ledger

A spy remembers what the ledger held when it was opened, its **baseline**, and sees what came
after.  It is open until it is closed, and closed for good then: closing holds its expectations
against the window and keeps the findings.

While it is open, expectations may be added, one may be tried without closing (`verify`), and the
window may be moved to begin now (`reset`).  Each of these is an error on a closed spy.  The
questions to a window (`executedStatements`, `socketOperations`, `networkTraffic`) are answered
open or closed.
-/

namespace Wiretap

/-- What the ledger held at one moment. -/
structure Baseline where
  statements : Table StatementId Stats := .empty
  sockets : Table ConnectionId Stats := .empty
  traffic : Table ConnectionId Position := .empty
  deriving Inhabited

namespace Baseline

/-- What the ledger holds now. -/
def of (l : Ledger) : Baseline := ⟨l.statements, l.sockets, l.positions⟩

/-- What counters gained over earlier readings; a counter that gained nothing is left out. -/
def gains [BEq κ] (now before : Table κ Stats) : Table κ Stats :=
  now.filterMap fun k s =>
    let gain := match before.get? k with
      | some earlier => s.since earlier
      | none => s
    if gain.isZero then none else some gain

end Baseline

/-- A window on the ledger, with expectations about it. -/
structure Spy where
  /-- The thread that opened the window. -/
  creator : Thread
  baseline : Baseline
  expectations : List Expectation := []
  closed : Bool := false
  /-- What came of the expectations when the window was closed. -/
  findings : List Finding := []
  deriving Inhabited

/-- Why an operation on a spy failed. -/
inductive SpyError where
  | closed
  | violated (violation : Violation)
  deriving Repr

/-- The words of the error. -/
def SpyError.message : SpyError → String
  | .closed => "spy is already closed"
  | .violated violation => violation.text

namespace Spy

/-- Opens a window that begins now. -/
def begin (creator : Thread) (l : Ledger) : Spy := { creator, baseline := .of l }

/-- What was counted in the window. -/
def observe (s : Spy) (l : Ledger) : Observation where
  creator := s.creator
  statements := Baseline.gains l.statements s.baseline.statements
  sockets := Baseline.gains l.sockets s.baseline.sockets

/-- Adds an expectation. -/
def add (s : Spy) (e : Expectation) : Except SpyError Spy :=
  if s.closed then .error .closed else .ok { s with expectations := s.expectations ++ [e] }

/-- Adds an expectation, or does nothing to a closed spy. -/
def expecting (s : Spy) (e : Expectation) : Spy := (s.add e).toOption.getD s

/-- Moves the beginning of the window to now. -/
def reset (s : Spy) (l : Ledger) : Except SpyError Spy :=
  if s.closed then .error .closed else .ok { s with baseline := .of l }

/-- Tries one expectation on the window so far. -/
def verify (s : Spy) (l : Ledger) (e : Expectation) : Except SpyError Unit :=
  if s.closed then .error .closed
  else
    match Violation.among [Finding.evaluate e (s.observe l)] with
    | none => .ok ()
    | some violation => .error (.violated violation)

/-- Closes the window; what the expectations that fail come to, if any do.  Closing a closed spy
does nothing. -/
def close (s : Spy) (l : Ledger) : Option Violation × Spy :=
  if s.closed then (none, s)
  else
    let observation := s.observe l
    let findings := s.expectations.map fun e => Finding.evaluate e observation
    (Violation.among findings, { s with closed := true, findings := findings })

/-- The statements in the window. -/
def executedStatements (s : Spy) (l : Ledger) (scope : Scope) (removeTraces : Bool) :
    Table StatementId Stats :=
  Query.statements (s.observe l).statements scope s.creator removeTraces

/-- How many statements of a kind were executed in the window. -/
def statementCount (s : Spy) (l : Ledger) (kind : StatementKind) (scope : Scope) : UInt64 :=
  Query.executions (s.executedStatements l scope true) kind

/-- What connections did in the window. -/
def socketOperations (s : Spy) (l : Ledger) (scope : Scope) (matcher : AddressMatcher)
    (removeTraces : Bool) : Table ConnectionId Stats :=
  Query.sockets (s.observe l).sockets scope s.creator matcher removeTraces

/-- The packets in the window, in groups. -/
def networkTraffic (s : Spy) (l : Ledger) (scope : Scope) (matcher : AddressMatcher)
    (grouping : Grouping) : List (GroupKey × List Packet) :=
  Traffic.group scope s.creator matcher grouping l.threshold (l.trafficSince s.baseline.traffic)

end Spy

end Wiretap
