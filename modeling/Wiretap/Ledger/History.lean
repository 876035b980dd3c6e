import Wiretap.Ledger
import Wiretap.Query
import Wiretap.Traffic.Grouping
/-!
# Questions to the whole ledger

Beside windows, the ledger itself can be asked: for the statements, for what connections did and
for the packets, all since it was made or last cleared.  The threads that count are selected as
seen from the thread that asks.

The packets of connections to other addresses are left out before anything else is done; the
report leaves them out again.
-/

namespace Wiretap.Ledger

/-- The statements so far. -/
def executedStatements (l : Ledger) (scope : Scope) (caller : Thread) (removeTraces : Bool) :
    Table StatementId Stats :=
  Query.statements l.statements scope caller removeTraces

/-- What connections did so far. -/
def socketOperations (l : Ledger) (scope : Scope) (caller : Thread) (matcher : AddressMatcher)
    (removeTraces : Bool) : Table ConnectionId Stats :=
  Query.sockets l.sockets scope caller matcher removeTraces

/-- The packets of the connections to addresses that are asked for. -/
def packetsTo (l : Ledger) (matcher : AddressMatcher) : Table ConnectionId (List Packet) :=
  l.packets.filter fun id _ => matcher.accepts id.address

/-- The packets so far, in groups. -/
def networkTraffic (l : Ledger) (scope : Scope) (caller : Thread) (matcher : AddressMatcher)
    (grouping : Grouping) : List (GroupKey × List Packet) :=
  Traffic.group scope caller matcher grouping l.threshold (l.packetsTo matcher)

end Wiretap.Ledger
