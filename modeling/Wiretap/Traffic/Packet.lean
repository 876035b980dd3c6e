import Wiretap.Connection
import Wiretap.Counter
/-!
# Packets: runs of bytes in one direction

A packet is a message as the application perceives it: bytes that moved one after another in one
direction, for one thread, without a long pause.  It remembers when its first bytes moved and
when its last ones did.

Two things can be put behind a packet: a **chunk**, the bytes of one call (`continues`,
`extend`), and another packet (`combine`), which must have the same call site too.  A packet
keeps its bytes newest first, so that a long packet grows as fast as a short one; `payload` is how
they are read, and `payload_extend` and `payload_dropBytes` say what becomes of it.
-/

namespace Wiretap

/-- Which way bytes moved. -/
inductive Direction where
  | sent
  | received
  deriving DecidableEq, Repr, Inhabited

/-- The direction in the words of a report. -/
def Direction.text : Direction → String
  | .sent => "SENT"
  | .received => "RECEIVED"

/-- The bytes that one call moved. -/
structure Chunk where
  direction : Direction
  bytes : List UInt8
  time : UInt64
  thread : Thread
  trace : Option String := none
  deriving Repr, Inhabited

/-- A run of bytes in one direction. -/
structure Packet where
  connection : ConnectionId
  direction : Direction
  /-- When the first bytes moved. -/
  start : UInt64
  /-- The latest time at which bytes moved. -/
  last : UInt64
  thread : Thread
  trace : Option String := none
  /-- The bytes, newest first. -/
  newestFirst : List UInt8
  deriving Repr, Inhabited

namespace Packet

/-- The bytes, oldest first. -/
def payload (p : Packet) : List UInt8 := p.newestFirst.reverse

/-- The packet that a chunk begins. -/
def ofChunk (connection : ConnectionId) (chunk : Chunk) : Packet where
  connection := connection
  direction := chunk.direction
  start := chunk.time
  last := chunk.time
  thread := chunk.thread
  trace := chunk.trace
  newestFirst := chunk.bytes.reverse

/-- The number of bytes. -/
def size (p : Packet) : Nat := p.newestFirst.length

/-- Whether bytes that move at `time` in a direction and for a thread continue the packet: both
are its own, and the pause since its last bytes is within `threshold`.  A time before those bytes
is no pause. -/
def continues (p : Packet) (direction : Direction) (thread : Thread) (time threshold : UInt64) :
    Bool :=
  p.direction == direction && p.thread == thread && flooredSub time p.last ≤ threshold

/-- The packet with the bytes of a chunk behind it. -/
def extend (p : Packet) (chunk : Chunk) : Packet :=
  { p with
    newestFirst := chunk.bytes.reverse ++ p.newestFirst
    last := max p.last chunk.time }

/-- Both packets as one, where the second continues the first from the same call site. -/
def combine (p next : Packet) (threshold : UInt64) : Option Packet :=
  if p.trace = next.trace ∧ p.continues next.direction next.thread next.start threshold then
    some { p with newestFirst := next.newestFirst ++ p.newestFirst, last := max p.last next.last }
  else none

/-- The packet without its first `n` bytes. -/
def dropBytes (p : Packet) (n : Nat) : Packet :=
  { p with newestFirst := p.newestFirst.take (p.size - n) }

@[simp] theorem length_payload (p : Packet) : p.payload.length = p.size := by
  simp [payload, size]

@[simp] theorem payload_ofChunk (connection : ConnectionId) (chunk : Chunk) :
    (ofChunk connection chunk).payload = chunk.bytes := by
  simp [payload, ofChunk]

/-- A chunk comes behind the bytes that are there. -/
@[simp] theorem payload_extend (p : Packet) (chunk : Chunk) :
    (p.extend chunk).payload = p.payload ++ chunk.bytes := by
  simp [payload, extend]

/-- The first bytes go. -/
@[simp] theorem payload_dropBytes (p : Packet) (n : Nat) :
    (p.dropBytes n).payload = p.payload.drop n := by
  simp only [payload, dropBytes, size, List.reverse_take]
  by_cases h : n ≤ p.newestFirst.length
  · congr 1
    omega
  · rw [List.drop_of_length_le, List.drop_of_length_le] <;> simp <;> omega

/-- The packet as its bytes, each with its direction. -/
def flow (p : Packet) : List (Direction × UInt8) :=
  p.payload.map (p.direction, ·)

end Packet

end Wiretap
