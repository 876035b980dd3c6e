import Wiretap.Table
import Wiretap.Stats
import Wiretap.Statement
import Wiretap.Traffic.Reconstruction
import Wiretap.Interner
/-!
# The ledger: what was counted and what was said

The ledger holds one counter for each identity of a connection and of a statement, the packets of
each connection, and for each statement text how often and how long it ran.  It also deals out the
ordinals that tell connections to one address apart.

* A counter takes its increments with wrapping addition, so the order of entries does not matter.
* The table of running times follows only the first texts that come, as many as its capacity says.
* A reading of the packets at one moment (`positions`) tells later what came after it
  (`trafficSince`).
-/

namespace Wiretap

/-- How often and how long a statement text ran. -/
structure SqlTimer where
  executions : UInt64 := 0
  /-- All running times together, wrapped. -/
  total : UInt64 := 0
  /-- The longest running time. -/
  longest : UInt64 := 0
  deriving DecidableEq, Repr, Inhabited

/-- The timer after one more execution. -/
def SqlTimer.note (t : SqlTimer) (nanos : UInt64) : SqlTimer where
  executions := t.executions + 1
  total := t.total + nanos
  longest := max t.longest nanos

/-- Everything that was recorded. -/
structure Ledger where
  /-- The longest pause inside a packet. -/
  mergeThreshold : Duration := .ofMillis 500
  /-- How many statement texts are timed. -/
  capacity : Nat := 1024
  sockets : Table ConnectionId Stats := .empty
  statements : Table StatementId Stats := .empty
  traffic : Table ConnectionId Reconstruction := .empty
  /-- The next ordinal of each address. -/
  ordinals : Table Address UInt32 := .empty
  timers : Table String SqlTimer := .empty
  /-- The texts that are shared between identities. -/
  texts : Interner := .fresh
  deriving Inhabited

namespace Ledger

/-- The longest pause inside a packet, as a number of nanoseconds. -/
def threshold (l : Ledger) : UInt64 := l.mergeThreshold.nanos

/-- The ordinal for a new connection to an address: 0 for the first, then 1, 2 and so on up to the
greatest, which is then dealt out again and again. -/
def nextOrdinal (l : Ledger) (address : Address) : UInt32 × Ledger :=
  let ordinal := (l.ordinals.get? address).getD 0
  let next := if ordinal = 4294967295 then ordinal else ordinal + 1
  (ordinal, { l with ordinals := l.ordinals.insert address next })

/-- The counters with one more increment for a key. -/
def count [BEq κ] (counters : Table κ Stats) (key : κ) (delta : Stats) : Table κ Stats :=
  counters.alter key fun counter => (counter.getD .zero).accumulate delta

/-- Counts input or output of a connection. -/
def recordSocket (l : Ledger) (id : ConnectionId) (delta : Stats) : Ledger :=
  { l with sockets := count l.sockets id delta }

/-- The timers with one more execution of a text; a new text is timed only while there is room. -/
def time (capacity : Nat) (timers : Table String SqlTimer) (sql : String) (nanos : UInt64) :
    Table String SqlTimer :=
  if timers.contains sql || timers.size < capacity then
    timers.alter sql fun timer => (timer.getD {}).note nanos
  else timers

/-- Counts an executed statement. -/
def recordStatement (l : Ledger) (id : StatementId) (delta : Stats) : Ledger :=
  { l with
    statements := count l.statements id delta
    timers := time l.capacity l.timers id.sql delta.elapsed }

/-- Adds the bytes of one call to the packets of a connection. -/
def append (l : Ledger) (id : ConnectionId) (chunk : Chunk) : Ledger :=
  if chunk.bytes.isEmpty then l
  else
    { l with
      traffic := l.traffic.alter id fun packets =>
        (packets.getD { connection := id, threshold := l.threshold }).append chunk }

/-- Closes the open packet of a connection. -/
def flush (l : Ledger) (id : ConnectionId) : Ledger :=
  if l.traffic.contains id then
    { l with
      traffic := l.traffic.alter id fun packets =>
        (packets.getD { connection := id, threshold := l.threshold }).flush }
  else l

/-- The packets of every connection. -/
def packets (l : Ledger) : Table ConnectionId (List Packet) :=
  l.traffic.mapValues fun _ r => r.packets

/-- How far the packets of every connection have come. -/
def positions (l : Ledger) : Table ConnectionId Position :=
  l.traffic.mapValues fun _ r => r.position

/-- The packets that came after the positions, of the connections that have any.  Of a connection
without a position all packets did. -/
def trafficSince (l : Ledger) (positions : Table ConnectionId Position) :
    Table ConnectionId (List Packet) :=
  l.traffic.filterMap fun id r =>
    let packets := r.packetsSince ((positions.get? id).getD {})
    if packets.isEmpty then none else some packets

/-- The longer total goes first, and of equal ones the lesser text. -/
def timingOrder (a b : String × SqlTimer) : Ordering :=
  (compare b.2.total a.2.total).then (compare a.1 b.1)

/-- The texts that ran longest, each with its timer. -/
def topSql (l : Ledger) (limit : Nat) : List (String × SqlTimer) :=
  (l.timers.rows.mergeSort fun a b => (timingOrder a b).isLE).take limit

/-- Keeps a text for sharing. -/
def intern (l : Ledger) (s : String) : String × Ledger :=
  let (shared, texts) := l.texts.intern s
  (shared, { l with texts := texts })

/-- The ledger with nothing recorded in it. -/
def clear (l : Ledger) : Ledger where
  mergeThreshold := l.mergeThreshold
  capacity := l.capacity
  texts := l.texts.clear

/-- Appending touches nothing but packets. -/
theorem append_frame (l : Ledger) (id : ConnectionId) (chunk : Chunk) :
    l.append id chunk = { l with traffic := (l.append id chunk).traffic } := by
  unfold append
  split
  · rfl
  · rfl

/-- Closing a packet touches nothing but packets. -/
theorem flush_frame (l : Ledger) (id : ConnectionId) :
    l.flush id = { l with traffic := (l.flush id).traffic } := by
  unfold flush
  split
  · rfl
  · rfl

end Ledger

end Wiretap
