import Wiretap.Table
import Wiretap.Address.Matcher
import Wiretap.Traffic.Packet
/-!
# Grouping packets for a report

A report shows the packets of the threads and addresses asked for, in groups.  The **grouping**
says what keeps packets apart beside their address: the connection, the thread, the call site.
What does not is erased from the group's key, and then packets that had only that between them
are put together again, so that a group reads as one conversation in the order of time.

Groups come by address, then ordinal, then the time of their first packet.  Groups that are equal in
all three come in the order in which they were found, which is nobody's choice: it goes back to the
order in which the connections are gone through.
-/

namespace Wiretap

/-- What keeps packets apart beside their address. -/
structure Grouping where
  byConnection : Bool := true
  byThread : Bool := true
  byTrace : Bool := true
  deriving DecidableEq, Repr, Inhabited

/-- Everything that goes to one address together. -/
def Grouping.byAddress : Grouping := ⟨false, false, false⟩

/-- What the packets of a group have in common; what is not grouped by is absent. -/
structure GroupKey where
  address : Address
  ordinal : Option UInt32
  thread : Option Thread
  trace : Option String
  deriving Repr, Inhabited

namespace GroupKey

/-- What a key is told apart by. -/
def key (k : GroupKey) : Address × Option UInt32 × Option Nat × Option String :=
  (k.address, k.ordinal, k.thread.map Thread.id, k.trace)

instance : BEq GroupKey := ⟨fun a b => a.key == b.key⟩

/-- Groups are equal when their keys are; the names of threads take no part. -/
theorem beq_iff {a b : GroupKey} : (a == b) = true ↔ a.key = b.key := by
  show (a.key == b.key) = true ↔ _
  exact beq_iff_eq

instance : EquivBEq GroupKey where
  rfl := beq_iff.2 rfl
  symm h := beq_iff.2 (beq_iff.1 h).symm
  trans h h' := beq_iff.2 ((beq_iff.1 h).trans (beq_iff.1 h'))

end GroupKey

namespace Grouping

/-- The group that a packet of a connection belongs to. -/
def keyOf (g : Grouping) (c : ConnectionId) (p : Packet) : GroupKey where
  address := c.address
  ordinal := if g.byConnection then some c.ordinal else none
  thread := if g.byThread then some p.thread else none
  trace := if g.byTrace then p.trace else none

/-- The packet as it stands in its group: without a call site where that is not grouped by. -/
def erase (g : Grouping) (p : Packet) : Packet :=
  if g.byTrace then p else { p with trace := none }

end Grouping

namespace Traffic

/-- Puts every packet behind the one before it where that can be done, beginning with `p`. -/
def mergeFrom (threshold : UInt64) (p : Packet) : List Packet → List Packet
  | [] => [p]
  | next :: rest =>
    match p.combine next threshold with
    | some whole => mergeFrom threshold whole rest
    | none => p :: mergeFrom threshold next rest

/-- Puts neighbours together where the second continues the first. -/
def mergeAdjacent (threshold : UInt64) : List Packet → List Packet
  | [] => []
  | p :: rest => mergeFrom threshold p rest

/-- Like `mergeFrom`, as if all threads were one: what is put behind a packet takes its thread. -/
def mergeAnyThreadFrom (threshold : UInt64) (p : Packet) : List Packet → List Packet
  | [] => [p]
  | next :: rest =>
    match p.combine { next with thread := p.thread } threshold with
    | some whole => mergeAnyThreadFrom threshold whole rest
    | none => p :: mergeAnyThreadFrom threshold next rest

/-- Puts neighbours together where the second continues the first but for its thread. -/
def mergeAdjacentAnyThread (threshold : UInt64) : List Packet → List Packet
  | [] => []
  | p :: rest => mergeAnyThreadFrom threshold p rest

/-- The packets of matching connections and selected threads, each with its group. -/
def selected (scope : Scope) (creator : Thread) (matcher : AddressMatcher) (grouping : Grouping)
    (traffic : Table ConnectionId (List Packet)) : List (GroupKey × Packet) :=
  traffic.rows.flatMap fun (c, packets) =>
    if matcher.accepts c.address then
      (packets.filter fun p => scope.selects p.thread creator).map fun p =>
        (grouping.keyOf c p, grouping.erase p)
    else []

/-- The packets of each group, in the order in which they are given. -/
def collect (packets : List (GroupKey × Packet)) : Table GroupKey (List Packet) :=
  packets.foldl (fun groups (k, p) => groups.alter k fun ps => ps.getD [] ++ [p]) .empty

/-- The packets of a group in the order of time, put together where they continue each other. -/
def settle (grouping : Grouping) (threshold : UInt64) (packets : List Packet) : List Packet :=
  let timely := packets.mergeSort fun a b => a.start ≤ b.start
  if grouping.byThread then mergeAdjacent threshold timely
  else mergeAdjacentAnyThread threshold timely

/-- When the first packet of a group began. -/
def firstStart (packets : List Packet) : UInt64 := (packets.head?.map Packet.start).getD 0

/-- By address, ordinal and first time. -/
def order (a b : GroupKey × List Packet) : Ordering :=
  (a.1.address.order b.1.address).then <| (compare a.1.ordinal b.1.ordinal).then
    (compare (firstStart a.2) (firstStart b.2))

/-- The groups of a report. -/
def group (scope : Scope) (creator : Thread) (matcher : AddressMatcher) (grouping : Grouping)
    (threshold : UInt64) (traffic : Table ConnectionId (List Packet)) :
    List (GroupKey × List Packet) :=
  let groups := collect (selected scope creator matcher grouping traffic)
  let settled := groups.rows.map fun (k, packets) => (k, settle grouping threshold packets)
  settled.mergeSort fun a b => (order a b).isLE

end Traffic

end Wiretap
