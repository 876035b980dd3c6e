import Wiretap.Expectation
import Wiretap.Connection
import Wiretap.Stats
import Wiretap.Table
/-!
# Findings: expectations held against what happened

An **observation** is what was counted in a window, with the thread that opened it.  Holding an
expectation against it gives a **finding**: how much was observed, the events that make it up, and
whether the count or else the rows fail the expectation.

* An event of a statement expectation is a statement of the kind in question by a selected thread;
  it comes as often as it was executed.
* An event of a connection expectation is a connection, whichever threads used it; its identities
  are put together, and it shows the call site of one of them if there is any.

The counters have no order of their own.  The one in which they happen to be gone through says how
events with one description stand to each other, and which identity stands for a connection.

The sums over a window are sums of words and wrap.
-/

namespace Wiretap

/-- A statement or a connection that was seen in a window. -/
structure Event where
  description : String
  count : UInt64
  thread : Thread
  trace : Option String
  deriving Repr, Inhabited

/-- How an expectation fails. -/
inductive Failure where
  | count
  | rows
  deriving DecidableEq, Repr, Inhabited

/-- What came of an expectation. -/
structure Finding where
  expectation : Expectation
  observed : UInt64
  /-- The rows, of statements only. -/
  rows : Option UInt64
  events : List Event
  failure : Option Failure
  deriving Repr, Inhabited

/-- What was counted in a window, and the thread that opened it. -/
structure Observation where
  creator : Thread
  statements : Table StatementId Stats
  sockets : Table ConnectionId Stats
  deriving Inhabited

namespace Event

/-- By description.  Events with one description stay as they are found. -/
def order (a b : Event) : Ordering := compare a.description b.description

/-- The lines of a text, without line feeds.  A line feed at the end begins no line. -/
def lines (cs : List Char) : List (List Char) :=
  match cs with
  | [] => []
  | c :: r =>
    if c = '\n' then [] :: lines r
    else
      match lines r with
      | [] => [[c]]
      | line :: rest => (c :: line) :: rest

/-- The lines of a call site in a report. -/
def traceText (trace : String) : String :=
  String.join <| (lines trace.toList).map fun line =>
    s!"      {String.ofList (Text.trimBack line)}\n"

/-- The event in a report. -/
def text (e : Event) : String :=
  let times := if 1 < e.count then s!" /*{e.count} times*/" else ""
  let trace := match e.trace with
    | some trace => traceText trace
    | none => ""
  s!"  {e.description}{times}\n{trace}"

end Event

namespace Observation

/-- The statements that a kind and a scope select, each with what was counted for it. -/
def selectedStatements (o : Observation) (kind : StatementKind) (scope : Scope) :
    List (StatementId × Stats) :=
  o.statements.rows.filter fun (id, stats) =>
    stats.operations != 0 && kind.covers id.kind && scope.selects id.owner o.creator

/-- The identities of connections that a matcher and a scope select. -/
def selectedSockets (o : Observation) (matcher : AddressMatcher) (scope : Scope) :
    List (ConnectionId × Stats) :=
  o.sockets.rows.filter fun (id, stats) =>
    stats.operations != 0 && matcher.accepts id.address && scope.selects id.owner o.creator

/-- The event of a statement. -/
def statementEvent (row : StatementId × Stats) : Event where
  description := row.1.sql
  count := row.2.operations
  thread := row.1.owner
  trace := row.1.trace

/-- A connection with one more of its identities.  The identity that stands for it is the first,
or the first with a call site. -/
def gather (id : ConnectionId) (stats : Stats) :
    Option (Stats × ConnectionId) → Stats × ConnectionId
  | none => (Stats.zero.plus stats, id)
  | some (total, standing) =>
    (total.plus stats,
      if standing.trace.isNone && id.trace.isSome then id else standing)

/-- The connections of identities, each with its total and the identity that stands for it. -/
def connections (rows : List (ConnectionId × Stats)) :
    Table (Address × UInt32) (Stats × ConnectionId) :=
  rows.foldl (fun table row => table.alter row.1.connection (gather row.1 row.2)) .empty

/-- By address, then by ordinal. -/
def connectionOrder (a b : Address × UInt32) : Ordering :=
  (a.1.order b.1).then (compare a.2 b.2)

/-- The event of a connection. -/
def connectionEvent (total : Stats) (id : ConnectionId) : Event where
  description :=
    s!"{id.text} sent {total.sent} bytes and received {total.received} bytes"
  count := 1
  thread := id.owner
  trace := id.trace

end Observation

namespace Finding

/-- Whether the expectation holds. -/
def passed (f : Finding) : Bool := f.failure.isNone

/-- How numbers fail an expectation, the count before the rows. -/
def failureOf (e : Expectation) (observed : UInt64) (rows : Option UInt64) : Option Failure :=
  if !e.count.contains observed then some .count
  else
    match e.rows, rows with
    | some range, some rows => if range.contains rows then none else some .rows
    | _, _ => none

/-- What comes of an expectation. -/
def evaluate (e : Expectation) (o : Observation) : Finding :=
  match e.target with
  | .statements kind =>
    let selected := o.selectedStatements kind e.threads
    let observed := sumWords (selected.map fun row => row.2.operations)
    let rows := sumWords (selected.map fun row => row.2.rows)
    { expectation := e
      observed := observed
      rows := some rows
      events := (selected.map Observation.statementEvent).mergeSort fun a b => (a.order b).isLE
      failure := failureOf e observed (some rows) }
  | .connections matcher =>
    let found := Observation.connections (o.selectedSockets matcher e.threads)
    let events := (found.sorted Observation.connectionOrder).map fun (_, total, id) =>
      Observation.connectionEvent total id
    let observed := UInt64.ofNat events.length
    { expectation := e
      observed := observed
      rows := none
      events := events
      failure := failureOf e observed none }

/-- What was counted, in the words of a report. -/
def unit (f : Finding) : String :=
  match f.expectation.target with
  | .statements _ => "queries"
  | .connections _ => "connections"

/-- The rows in a report on them. -/
def rowsText (f : Finding) : String :=
  match f.failure with
  | some .rows => s!" affecting {f.rows.getD 0} rows"
  | _ => ""

/-- The finding as a report. -/
def text (f : Finding) : String :=
  s!"Expected {f.expectation.text}\nObserved {f.observed} {f.unit}{f.rowsText} instead:\n" ++
    String.join (f.events.map Event.text)

end Finding

/-- The expectations that failed, which are at least one. -/
structure Violation where
  failures : List Finding
  deriving Repr, Inhabited

namespace Violation

/-- The failed ones among findings, if there are any. -/
def among (findings : List Finding) : Option Violation :=
  match findings.filter (!·.passed) with
  | [] => none
  | failures => some ⟨failures⟩

/-- The reports, with an empty line between them. -/
def text (v : Violation) : String := String.intercalate "\n" (v.failures.map Finding.text)

end Violation

end Wiretap
