import Wiretap.Traffic.Packet
/-!
# Reconstruction of packets from single calls

The reads and writes of one connection are put together greedily: a chunk that continues the open
packet is added to it, and any other chunk closes that packet and opens a new one.  Chunks without
bytes leave no mark.

A **position** names a moment in this history by the number of closed packets and the size of
the open one; `packetsSince` gives what was appended after it.  The packet that was open then
comes without the bytes it already had.  A position that lies beyond the history belongs to one
that was dropped, and then everything counts as new.

`packets_flush` and `closed_prefix_append` say what the two operations leave alone.
-/

namespace Wiretap

/-- A moment in the history of a connection's packets. -/
structure Position where
  closed : Nat := 0
  openBytes : Nat := 0
  deriving DecidableEq, Repr, Inhabited

/-- The packets of one connection so far. -/
structure Reconstruction where
  connection : ConnectionId
  /-- The longest pause, in nanoseconds, inside a packet. -/
  threshold : UInt64
  /-- The packets that are complete, newest first. -/
  newestFirst : List Packet := []
  /-- The packet that may still grow. -/
  current : Option Packet := none
  deriving Repr, Inhabited

namespace Reconstruction

/-- The packets that are complete, oldest first. -/
def closed (r : Reconstruction) : List Packet := r.newestFirst.reverse

/-- Closes the open packet, if there is one. -/
def flush (r : Reconstruction) : Reconstruction :=
  { r with newestFirst := r.current.toList ++ r.newestFirst, current := none }

/-- Adds the bytes of one call. -/
def append (r : Reconstruction) (chunk : Chunk) : Reconstruction :=
  if chunk.bytes.isEmpty then r
  else
    let fresh := { r.flush with current := some (Packet.ofChunk r.connection chunk) }
    match r.current with
    | some p =>
      if p.continues chunk.direction chunk.thread chunk.time r.threshold then
        { r with current := some (p.extend chunk) }
      else fresh
    | none => fresh

/-- All packets, the open one last. -/
def packets (r : Reconstruction) : List Packet := r.closed ++ r.current.toList

/-- The number of packets. -/
def size (r : Reconstruction) : Nat := r.packets.length

/-- The number of bytes in the open packet. -/
def openSize (r : Reconstruction) : Nat := (r.current.map Packet.size).getD 0

/-- The present moment. -/
def position (r : Reconstruction) : Position := ⟨r.closed.length, r.openSize⟩

/-- Whether the history reaches as far as the position says. -/
def reaches (r : Reconstruction) (p : Position) : Bool :=
  p.closed < r.closed.length || (p.closed == r.closed.length && p.openBytes ≤ r.openSize)

/-- A list of packets without the first `n` bytes of its first packet; a packet of which nothing
is left goes too. -/
def dropFront (n : Nat) : List Packet → List Packet
  | [] => []
  | p :: rest =>
    if n = 0 then p :: rest
    else if p.size ≤ n then rest
    else p.dropBytes n :: rest

/-- The packets that were appended after the position. -/
def packetsSince (r : Reconstruction) (p : Position) : List Packet :=
  let p := if r.reaches p then p else {}
  dropFront p.openBytes (r.packets.drop p.closed)

/-- The open packet becomes the last of the closed ones. -/
@[simp] theorem closed_flush (r : Reconstruction) : r.flush.closed = r.packets := by
  cases h : r.current <;> simp [closed, flush, packets, h]

/-- Flushing changes no packet. -/
@[simp] theorem packets_flush (r : Reconstruction) : r.flush.packets = r.packets := by
  rw [packets, closed_flush]
  simp [flush]

/-- A chunk without bytes leaves no mark. -/
theorem append_of_isEmpty {r : Reconstruction} {chunk : Chunk}
    (h : chunk.bytes.isEmpty = true) : r.append chunk = r := by
  simp [append, h]

/-- Appending never touches a closed packet. -/
theorem closed_prefix_append (r : Reconstruction) (chunk : Chunk) :
    r.closed <+: (r.append chunk).closed := by
  have hf : r.closed <+: r.flush.closed := by simp [packets]
  unfold append
  split
  · exact List.prefix_refl _
  · split
    · split
      · exact List.prefix_refl _
      · exact hf
    · exact hf

end Reconstruction

end Wiretap
