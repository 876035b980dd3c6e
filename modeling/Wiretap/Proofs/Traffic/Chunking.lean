import Wiretap.Proofs.Traffic.Runs
/-!
# Chunking does not matter

The bytes of a call may reach a reconstruction at once, or piece by piece at the same reading of the
clock.  **The reconstruction is the same afterwards**: its closed packets, its open packet and the
time at which that one last took bytes.

The first piece with bytes may find a packet that it continues, one that it closes, or none.  In
each case it leaves an open packet behind that is of its own direction and thread and has reached
its time (`Awaits`).  Such a packet takes every further piece, for there is no pause between them;
where the clock had stepped back before the first of them, there is none either.  So nothing depends
on the threshold, which may be zero.

* `append_append` — two pieces, at any reconstruction;
* `chunking_does_not_show` — any feed in which every chunk comes in pieces of its own.
-/

namespace Wiretap

private theorem le_max_time (last time : UInt64) : time ≤ max last time := by
  rw [UInt64.le_iff_toNat_le, UInt64.toNat_max]
  omega

private theorem max_time_of_le {last time : UInt64} (h : time ≤ last) : max last time = last := by
  have hle := UInt64.le_iff_toNat_le.1 h
  rw [← UInt64.toNat_inj, UInt64.toNat_max]
  omega

namespace Packet

/-- Bytes that move at a time which the packet has reached come after no pause. -/
theorem continues_of_le_last {p : Packet} {direction : Direction} {thread : Thread} {time : UInt64}
    (hdirection : p.direction = direction) (hthread : p.thread.id = thread.id)
    (htime : time ≤ p.last) (threshold : UInt64) :
    p.continues direction thread time threshold = true := by
  have hpause : flooredSub time p.last ≤ threshold := by
    have hle := UInt64.le_iff_toNat_le.1 htime
    rw [UInt64.le_iff_toNat_le, toNat_flooredSub]
    omega
  rw [continues, Bool.and_eq_true, Bool.and_eq_true, beq_iff_eq, Thread.beq_iff, decide_eq_true_eq]
  exact ⟨⟨hdirection, hthread⟩, hpause⟩

/-- Nothing behind a packet, at a time that it has reached, leaves it as it was. -/
theorem extend_nothing {p : Packet} {chunk : Chunk} (hbytes : chunk.bytes = [])
    (htime : chunk.time ≤ p.last) : p.extend chunk = p := by
  rw [extend, hbytes, max_time_of_le htime]
  rfl

/-- Two pieces of a chunk behind a packet are the chunk behind it. -/
theorem extend_extend (p : Packet) (chunk : Chunk) (first second : List UInt8) :
    (p.extend { chunk with bytes := first }).extend { chunk with bytes := second } =
      p.extend { chunk with bytes := first ++ second } := by
  have hlast := max_time_of_le (le_max_time p.last chunk.time)
  simp only [extend, List.reverse_append, List.append_assoc, hlast]

/-- The packet that a piece began, with the next piece behind it, is the one that both begin. -/
theorem extend_ofChunk (connection : ConnectionId) (chunk : Chunk) (first second : List UInt8) :
    (ofChunk connection { chunk with bytes := first }).extend { chunk with bytes := second } =
      ofChunk connection { chunk with bytes := first ++ second } := by
  have hlast := max_time_of_le (UInt64.le_refl chunk.time)
  simp only [extend, ofChunk, List.reverse_append, hlast]

end Packet

namespace Reconstruction

/-- **A reconstruction that awaits a chunk:** its open packet is of the chunk's direction and thread
and has reached the chunk's time. -/
structure Awaits (r : Reconstruction) (chunk : Chunk) (p : Packet) : Prop where
  current : r.current = some p
  direction : p.direction = chunk.direction
  thread : p.thread.id = chunk.thread.id
  time : chunk.time ≤ p.last

/-- The open packet takes a chunk that is awaited, whether it has bytes or not. -/
theorem Awaits.append {r : Reconstruction} {chunk : Chunk} {p : Packet} (h : r.Awaits chunk p) :
    r.append chunk = { r with current := some (p.extend chunk) } := by
  obtain ⟨hcurrent, hdirection, hthread, htime⟩ := h
  by_cases hbytes : chunk.bytes = []
  · rw [append_of_isEmpty (List.isEmpty_iff.2 hbytes), Packet.extend_nothing hbytes htime,
      ← hcurrent]
  · have hempty : ¬ chunk.bytes.isEmpty = true := fun h => hbytes (List.isEmpty_iff.1 h)
    rw [Reconstruction.append, if_neg hempty, hcurrent]
    exact if_pos (Packet.continues_of_le_last hdirection hthread htime r.threshold)

/-- The open packet, if bytes of the chunk's direction, thread and time continue it. -/
def continued? (r : Reconstruction) (chunk : Chunk) : Option Packet :=
  r.current.filter fun p => p.continues chunk.direction chunk.thread chunk.time r.threshold

/-- A packet that a chunk continues is the open one. -/
theorem current_of_continued? {r : Reconstruction} {chunk : Chunk} {p : Packet}
    (h : r.continued? chunk = some p) :
    r.current = some p ∧
      p.continues chunk.direction chunk.thread chunk.time r.threshold = true :=
  Option.filter_eq_some_iff.1 h

/-- What a chunk with bytes does depends on them only in what it adds. -/
theorem append_of_bytes {r : Reconstruction} {chunk : Chunk} (hbytes : chunk.bytes ≠ []) :
    r.append chunk =
      match r.continued? chunk with
      | some p => { r with current := some (p.extend chunk) }
      | none => { r.flush with current := some (.ofChunk r.connection chunk) } := by
  have hempty : ¬ chunk.bytes.isEmpty = true := fun h => hbytes (List.isEmpty_iff.1 h)
  rw [append, if_neg hempty, continued?]
  cases r.current with
  | none => rfl
  | some p =>
    rw [Option.filter_some]
    by_cases hcontinues : p.continues chunk.direction chunk.thread chunk.time r.threshold = true
    · simp only [if_pos hcontinues]
    · simp only [if_neg hcontinues]

/-- **Two pieces are one chunk.**  Where the first piece has bytes, it goes to the open packet or
opens one, and the whole chunk would do the same. -/
theorem append_append (r : Reconstruction) (chunk : Chunk) (first second : List UInt8) :
    (r.append { chunk with bytes := first }).append { chunk with bytes := second } =
      r.append { chunk with bytes := first ++ second } := by
  by_cases hfirst : first = []
  · subst hfirst
    have hnothing : r.append { chunk with bytes := [] } = r := append_of_isEmpty rfl
    rw [hnothing, List.nil_append]
  have hpiece : ∀ bytes : List UInt8, bytes ≠ [] → r.append { chunk with bytes } =
      match r.continued? chunk with
      | some p => { r with current := some (p.extend { chunk with bytes }) }
      | none => { r.flush with current := some (.ofChunk r.connection { chunk with bytes }) } :=
    fun bytes hbytes => append_of_bytes hbytes
  rw [hpiece _ hfirst, hpiece _ (List.append_ne_nil_of_left_ne_nil hfirst second)]
  cases hopen : r.continued? chunk with
  | some p =>
    obtain ⟨hcurrent, hcontinues⟩ := current_of_continued? hopen
    rw [Packet.continues, Bool.and_eq_true, Bool.and_eq_true] at hcontinues
    have hawaits : Awaits { r with current := some (p.extend { chunk with bytes := first }) }
        { chunk with bytes := second } (p.extend { chunk with bytes := first }) :=
      ⟨rfl, eq_of_beq hcontinues.1.1, Thread.beq_iff.1 hcontinues.1.2, le_max_time _ _⟩
    exact hawaits.append.trans (by rw [p.extend_extend])
  | none =>
    have hawaits : Awaits
        { r.flush with current := some (.ofChunk r.connection { chunk with bytes := first }) }
        { chunk with bytes := second } (.ofChunk r.connection { chunk with bytes := first }) :=
      ⟨rfl, rfl, rfl, UInt64.le_refl _⟩
    exact hawaits.append.trans (by rw [Packet.extend_ofChunk])

end Reconstruction

/-- What a reconstruction is fed with, where a chunk may come in **pieces**: bytes that one after
another make up its own. -/
inductive Burst where
  | append (chunk : Chunk) (pieces : List (List UInt8)) (whole : pieces.flatten = chunk.bytes)
  | flush

namespace Burst

/-- What is fed at once. -/
def whole : Burst → Feed
  | .append chunk _ _ => .append chunk
  | .flush => .flush

/-- What is fed piece by piece. -/
def inPieces : Burst → List Feed
  | .append chunk pieces _ => pieces.map fun bytes => .append { chunk with bytes }
  | .flush => [.flush]

end Burst

namespace Reconstruction

/-- **Any number of pieces.**  By induction on them; the first two are put together each time. -/
theorem fed_pieces (r : Reconstruction) (chunk : Chunk) (pieces : List (List UInt8)) :
    r.fed (pieces.map fun bytes => .append { chunk with bytes }) =
      r.append { chunk with bytes := pieces.flatten } := by
  induction pieces generalizing r with
  | nil => exact (append_of_isEmpty rfl).symm
  | cons piece rest ih =>
    calc r.fed ((piece :: rest).map fun bytes => .append { chunk with bytes })
        = (r.append { chunk with bytes := piece }).append { chunk with bytes := rest.flatten } :=
          ih _
      _ = r.append { chunk with bytes := (piece :: rest).flatten } := by
          rw [append_append, List.flatten_cons]

/-- A burst in pieces has the effect of the burst as a whole. -/
theorem fed_inPieces (r : Reconstruction) (burst : Burst) :
    r.fed burst.inPieces = r.take burst.whole := by
  cases burst with
  | append chunk pieces hwhole =>
    rw [Burst.inPieces, fed_pieces, hwhole]
    rfl
  | flush => rfl

/-- A whole feed.  By induction on it. -/
theorem fed_bursts (r : Reconstruction) (bursts : List Burst) :
    r.fed (bursts.flatMap Burst.inPieces) = r.fed (bursts.map Burst.whole) := by
  induction bursts generalizing r with
  | nil => rfl
  | cons burst rest ih =>
    rw [List.flatMap_cons, fed_append, fed_inPieces, ih]
    rfl

/-- **Chunking does not matter.**  A chunk in two pieces of one time, and in fact every chunk of a
feed in any pieces, leaves a reconstruction as the chunks themselves do. -/
theorem chunking_does_not_show (connection : ConnectionId) (threshold : UInt64)
    (feed : List Feed) :
    let r := ofFeed connection threshold feed
    (∀ (chunk : Chunk) (first second : List UInt8),
      (r.append { chunk with bytes := first }).append { chunk with bytes := second } =
        r.append { chunk with bytes := first ++ second }) ∧
      ∀ bursts : List Burst,
        r.fed (bursts.flatMap Burst.inPieces) = r.fed (bursts.map Burst.whole) := by
  intro r
  exact ⟨r.append_append, r.fed_bursts⟩

/-- No pause is allowed, and the clock was set back: the pieces of `[2, 3]` still go to the packet
that is open.  Those of `[4, 5, 6]` come past its last time and open one, together. -/
example :
    let sent := fun (bytes : List UInt8) (time : UInt64) =>
      Feed.append { direction := .sent, bytes, time, thread := ⟨1, none⟩ }
    let r := ofFeed ⟨⟨"db", 5432⟩, 0, ⟨1, none⟩, none⟩ 0 [sent [1] 9]
    (r.fed [sent [2] 3, sent [] 3, sent [3] 3, sent [4] 10, sent [5, 6] 10]).packets.map
        Packet.payload = [[1, 2, 3], [4, 5, 6]] := by
  decide +kernel

end Reconstruction

end Wiretap
