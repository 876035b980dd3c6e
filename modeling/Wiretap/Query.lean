import Wiretap.Table
import Wiretap.Stats
import Wiretap.Statement
import Wiretap.Connection
import Wiretap.Address.Matcher
/-!
# Questions to counters

A question selects the counters of some threads, and for connections of some addresses.  It may
ask for call sites to be left out; counters that differ only in those are then added up, with a
cap.
-/

namespace Wiretap.Query

/-- Counters under new keys; those that come under one key are added up. -/
def regroup [BEq κ] (rekey : κ → κ) (rows : List (κ × Stats)) : Table κ Stats :=
  rows.foldl (fun groups row => groups.alter (rekey row.1) fun s => (s.getD .zero).plus row.2)
    .empty

/-- The statement counters of the selected threads. -/
def statements (counters : Table StatementId Stats) (scope : Scope) (creator : Thread)
    (removeTraces : Bool) : Table StatementId Stats :=
  regroup (fun id => if removeTraces then id.withoutTrace else id) <|
    counters.rows.filter fun row => scope.selects row.1.owner creator

/-- The connection counters of the selected threads and addresses. -/
def sockets (counters : Table ConnectionId Stats) (scope : Scope) (creator : Thread)
    (matcher : AddressMatcher) (removeTraces : Bool) : Table ConnectionId Stats :=
  regroup (fun id => if removeTraces then id.withoutTrace else id) <|
    counters.rows.filter fun row =>
      scope.selects row.1.owner creator && matcher.accepts row.1.address

/-- How many executions of a kind the counters hold. -/
def executions (counters : Table StatementId Stats) (kind : StatementKind) : UInt64 :=
  sumWords ((counters.rows.filter fun row => kind.covers row.1.kind).map fun row =>
    row.2.operations)

end Wiretap.Query
