import Wiretap.Traffic.Reconstruction
/-!
# What came after a position

Bytes that are appended to a reconstruction are put into packets, of which the last one may still
be growing when a position is taken.  What comes after the position is cut out of the packets
later: whole packets are dropped, and the first of the others loses the bytes that it had.

Packets are read as bytes with a **tag**, which is the thread and the direction.  A packet never
takes bytes with another tag than its own, so nothing of this is lost in a packet.  The invariant
is `Since start bytes r`: after the position of `start`, the reconstruction `r` has `bytes`.  It
holds at the position itself (`Since.here`), every append adds its bytes to it (`Since.append`),
closing the open packet adds none (`Since.flush`), and it says what `packetsSince` returns
(`Since.tagged_packetsSince`).

Where the clock never runs backwards the packets also stand in the order of time (`Timely`).
-/

namespace Wiretap

/-- A byte with the number of the thread that moved it and the direction in which it moved. -/
abbrev TaggedByte := Nat × Direction × UInt8

/-- Bytes with their tag. -/
def tagged (thread : Thread) (direction : Direction) (bytes : List UInt8) : List TaggedByte :=
  bytes.map (thread.id, direction, ·)

/-- Bytes are tagged one by one. -/
theorem tagged_append (thread : Thread) (direction : Direction) (first second : List UInt8) :
    tagged thread direction (first ++ second) =
      tagged thread direction first ++ tagged thread direction second := List.map_append

def Packet.tagged (p : Packet) : List TaggedByte := Wiretap.tagged p.thread p.direction p.payload

def Chunk.tagged (c : Chunk) : List TaggedByte := Wiretap.tagged c.thread c.direction c.bytes

namespace Packet

theorem length_tagged (p : Packet) : p.tagged.length = p.size := by
  rw [tagged, Wiretap.tagged, List.length_map, length_payload]

theorem tagged_ofChunk (connection : ConnectionId) (chunk : Chunk) :
    (ofChunk connection chunk).tagged = chunk.tagged := by
  rw [tagged, payload_ofChunk]
  rfl

/-- A packet takes only bytes of its own thread and direction. -/
theorem tagged_extend {p : Packet} {chunk : Chunk} {threshold : UInt64}
    (h : p.continues chunk.direction chunk.thread chunk.time threshold = true) :
    (p.extend chunk).tagged = p.tagged ++ chunk.tagged := by
  simp only [continues, Bool.and_eq_true] at h
  obtain ⟨⟨hdirection, hthread⟩, -⟩ := h
  have hsame : chunk.tagged = Wiretap.tagged p.thread p.direction chunk.bytes := by
    rw [Chunk.tagged, Wiretap.tagged, Wiretap.tagged, eq_of_beq hdirection,
      Thread.beq_iff.1 hthread]
  rw [hsame, tagged, payload_extend, tagged_append]
  rfl

theorem tagged_dropBytes (p : Packet) (n : Nat) : (p.dropBytes n).tagged = p.tagged.drop n := by
  rw [tagged, payload_dropBytes, tagged, Wiretap.tagged, Wiretap.tagged, List.map_drop]
  rfl

theorem size_extend (p : Packet) (chunk : Chunk) : p.size ≤ (p.extend chunk).size := by
  rw [extend, size, size, List.length_append]
  omega

end Packet

namespace Reconstruction

/-- The size of the first packet. -/
def frontSize (packets : List Packet) : Nat := (packets.head?.map Packet.size).getD 0

theorem dropFront_zero (packets : List Packet) : dropFront 0 packets = packets := by
  cases packets with
  | nil => rfl
  | cons p rest => simp [dropFront]

/-- Dropping bytes of the first packet drops them from the bytes. -/
theorem tagged_dropFront {n : Nat} {packets : List Packet} (h : n ≤ frontSize packets) :
    (dropFront n packets).flatMap Packet.tagged = (packets.flatMap Packet.tagged).drop n := by
  cases packets with
  | nil => simp [dropFront]
  | cons p rest =>
    have hsize : n ≤ p.size := h
    have hlength := p.length_tagged
    simp only [dropFront]
    rw [List.flatMap_cons, List.drop_append_of_le_length (by omega)]
    split
    · rename_i hzero
      rw [hzero, List.drop_zero, List.flatMap_cons]
    · split
      · rw [List.drop_of_length_le (by omega), List.nil_append]
      · rw [List.flatMap_cons, Packet.tagged_dropBytes]

/-- Putting packets behind others does not change which is first, unless there was none. -/
theorem frontSize_append (packets more : List Packet) :
    frontSize packets ≤ frontSize (packets ++ more) := by
  cases packets with
  | nil => exact Nat.zero_le _
  | cons p rest => exact Nat.le_refl _

/-- The bytes of one call are added to the open packet or make a packet of their own. -/
theorem append_cases (r : Reconstruction) (chunk : Chunk) :
    (chunk.bytes = [] ∧ r.append chunk = r) ∨
      (∃ p, r.current = some p ∧
        p.continues chunk.direction chunk.thread chunk.time r.threshold = true ∧
        r.append chunk = { r with current := some (p.extend chunk) }) ∨
      (chunk.bytes ≠ [] ∧
        r.append chunk = { r.flush with current := some (Packet.ofChunk r.connection chunk) }) := by
  unfold append
  by_cases hempty : chunk.bytes.isEmpty = true
  · exact .inl ⟨List.isEmpty_iff.1 hempty, if_pos hempty⟩
  · rw [if_neg hempty]
    have hbytes : chunk.bytes ≠ [] := fun h => hempty (List.isEmpty_iff.2 h)
    cases hcurrent : r.current with
    | none => exact .inr (.inr ⟨hbytes, rfl⟩)
    | some p =>
      by_cases hcontinues :
          p.continues chunk.direction chunk.thread chunk.time r.threshold = true
      · exact .inr (.inl ⟨p, rfl, hcontinues, if_pos hcontinues⟩)
      · exact .inr (.inr ⟨hbytes, if_neg hcontinues⟩)

theorem packets_open (r : Reconstruction) (p : Packet) :
    ({ r.flush with current := some p } : Reconstruction).packets = r.packets ++ [p] := by
  rw [← r.closed_flush]
  rfl

theorem closed_open (r : Reconstruction) (p : Packet) :
    ({ r.flush with current := some p } : Reconstruction).closed = r.packets := r.closed_flush

/-- Where a position is reached, the packets before it are dropped, and the next one loses what was
there of it. -/
theorem packetsSince_of_reaches {start r : Reconstruction}
    (h : r.reaches start.position = true) :
    r.packetsSince start.position =
      dropFront start.openSize (r.packets.drop start.closed.length) := by
  unfold packetsSince
  simp only [if_pos h]
  rfl

/-- After the position of `start`, the reconstruction `r` has `bytes`. -/
structure Since (start : Reconstruction) (bytes : List TaggedByte) (r : Reconstruction) : Prop where
  closed : start.closed.length ≤ r.closed.length
  /-- The packet that was open at the position has not shrunk. -/
  front : start.openSize ≤ frontSize (r.packets.drop start.closed.length)
  flow : (r.packets.drop start.closed.length).flatMap Packet.tagged =
    start.current.toList.flatMap Packet.tagged ++ bytes

namespace Since

variable {start r : Reconstruction} {bytes : List TaggedByte}

/-- Nothing came yet where the packets are still those of the position. -/
theorem here (hclosed : r.closed = start.closed) (hcurrent : r.current = start.current) :
    Since start [] r := by
  have hdrop : r.packets.drop start.closed.length = start.current.toList := by
    rw [packets, hclosed, hcurrent, List.drop_left]
  refine ⟨Nat.le_of_eq (congrArg List.length hclosed.symm), ?_, ?_⟩
  · rw [hdrop, openSize, frontSize]
    cases start.current <;> exact Nat.le_refl _
  · rw [hdrop, List.append_nil]

theorem flush (h : Since start bytes r) : Since start bytes r.flush := by
  obtain ⟨hclosed, hfront, hflow⟩ := h
  refine ⟨?_, ?_, ?_⟩
  · rw [closed_flush, packets, List.length_append]
    omega
  · rw [packets_flush]
    exact hfront
  · rw [packets_flush]
    exact hflow

theorem append (h : Since start bytes r) (chunk : Chunk) :
    Since start (bytes ++ chunk.tagged) (r.append chunk) := by
  obtain ⟨hclosed, hfront, hflow⟩ := h
  rcases append_cases r chunk with ⟨hempty, hsame⟩ | ⟨p, hcurrent, hcontinues, hgrown⟩ |
    ⟨-, hopened⟩
  · have hnone : chunk.tagged = [] := by
      rw [Chunk.tagged, hempty]
      rfl
    rw [hsame, hnone, List.append_nil]
    exact ⟨hclosed, hfront, hflow⟩
  · -- The open packet is still the last one, and maybe it is also the first after the position.
    have hbefore : r.packets.drop start.closed.length =
        r.closed.drop start.closed.length ++ [p] := by
      rw [packets, hcurrent, List.drop_append_of_le_length hclosed]
      rfl
    have hafter : (r.append chunk).packets.drop start.closed.length =
        r.closed.drop start.closed.length ++ [p.extend chunk] := by
      rw [hgrown]
      exact List.drop_append_of_le_length hclosed
    rw [hbefore] at hfront hflow
    refine ⟨?_, ?_, ?_⟩
    · rw [hgrown]
      exact hclosed
    · rw [hafter]
      cases hrest : r.closed.drop start.closed.length with
      | nil =>
        rw [hrest] at hfront
        exact Nat.le_trans hfront (p.size_extend chunk)
      | cons q rest =>
        rw [hrest] at hfront
        exact hfront
    · rw [hafter, ← List.append_assoc, ← hflow, List.flatMap_append, List.flatMap_append,
        List.append_assoc]
      simp [Packet.tagged_extend hcontinues]
  · have hlength : start.closed.length ≤ r.packets.length := by
      rw [packets, List.length_append]
      omega
    have hafter : (r.append chunk).packets.drop start.closed.length =
        r.packets.drop start.closed.length ++ [Packet.ofChunk r.connection chunk] := by
      rw [hopened, packets_open, List.drop_append_of_le_length hlength]
    refine ⟨?_, ?_, ?_⟩
    · rw [hopened, closed_open]
      exact hlength
    · rw [hafter]
      exact Nat.le_trans hfront (frontSize_append _ _)
    · rw [hafter, List.flatMap_append, hflow, List.append_assoc]
      simp [Packet.tagged_ofChunk]

theorem reaches (h : Since start bytes r) : r.reaches start.position = true := by
  obtain ⟨hclosed, hfront, -⟩ := h
  rw [Reconstruction.reaches, position, Bool.or_eq_true, Bool.and_eq_true, decide_eq_true_eq,
    decide_eq_true_eq, beq_iff_eq]
  rcases Nat.lt_or_eq_of_le hclosed with hlt | heq
  · exact .inl hlt
  · refine .inr ⟨heq, ?_⟩
    have hdrop : r.packets.drop start.closed.length = r.current.toList := by
      rw [heq, packets, List.drop_left]
    rw [hdrop] at hfront
    refine Nat.le_trans hfront ?_
    rw [frontSize, openSize]
    cases r.current <;> exact Nat.le_refl _

/-- **The cut.**  The packets since a position have just the bytes that came after it. -/
theorem tagged_packetsSince (h : Since start bytes r) :
    (r.packetsSince start.position).flatMap Packet.tagged = bytes := by
  have hreaches := h.reaches
  obtain ⟨-, hfront, hflow⟩ := h
  have hlength : (start.current.toList.flatMap Packet.tagged).length = start.openSize := by
    rw [openSize]
    cases start.current with
    | none => rfl
    | some p => simp [Packet.length_tagged]
  rw [packetsSince_of_reaches hreaches, tagged_dropFront hfront, hflow, ← hlength, List.drop_left]

end Since

/-- The packets stand in the order of time, the last one began at `now` at the latest, and none is
without bytes. -/
structure Timely (r : Reconstruction) (now : UInt64) : Prop where
  sorted : (r.packets.map Packet.start).Pairwise (· ≤ ·)
  begun : ∀ p ∈ r.packets, p.start ≤ now
  whole : ∀ p ∈ r.packets, 0 < p.size

namespace Timely

variable {r : Reconstruction} {now : UInt64}

theorem blank (connection : ConnectionId) (threshold now : UInt64) :
    Timely { connection, threshold } now :=
  ⟨List.Pairwise.nil, fun _ h => (List.not_mem_nil h).elim, fun _ h => (List.not_mem_nil h).elim⟩

theorem later (h : Timely r now) {now' : UInt64} (hnow : now ≤ now') : Timely r now' :=
  ⟨h.sorted, fun p hp => UInt64.le_trans (h.begun p hp) hnow, h.whole⟩

theorem flush (h : Timely r now) : Timely r.flush now := by
  obtain ⟨hsorted, hbegun, hwhole⟩ := h
  rw [← packets_flush] at hsorted hbegun hwhole
  exact ⟨hsorted, hbegun, hwhole⟩

theorem append (h : Timely r now) {chunk : Chunk} (hnow : now ≤ chunk.time) :
    Timely (r.append chunk) chunk.time := by
  rcases append_cases r chunk with ⟨-, hsame⟩ | ⟨p, hcurrent, -, hgrown⟩ | ⟨hbytes, hopened⟩
  · rw [hsame]
    exact h.later hnow
  · have hbefore : r.packets = r.closed ++ [p] := by
      rw [packets, hcurrent]
      rfl
    have hafter : (r.append chunk).packets = r.closed ++ [p.extend chunk] := by
      rw [hgrown]
      rfl
    obtain ⟨hsorted, hbegun, hwhole⟩ := h.later hnow
    rw [hbefore] at hsorted hbegun hwhole
    refine ⟨?_, ?_, ?_⟩
    · rw [hafter, List.map_append] at *
      exact hsorted
    · intro q hq
      rw [hafter, List.mem_append, List.mem_singleton] at hq
      rcases hq with hq | rfl
      · exact hbegun q (List.mem_append_left _ hq)
      · exact hbegun p (List.mem_append_right _ List.mem_cons_self)
    · intro q hq
      rw [hafter, List.mem_append, List.mem_singleton] at hq
      rcases hq with hq | rfl
      · exact hwhole q (List.mem_append_left _ hq)
      · exact Nat.lt_of_lt_of_le (hwhole p (List.mem_append_right _ List.mem_cons_self))
          (p.size_extend chunk)
  · obtain ⟨hsorted, hbegun, hwhole⟩ := h.later hnow
    have hsize : 0 < (Packet.ofChunk r.connection chunk).size := by
      rw [Packet.ofChunk, Packet.size, List.length_reverse]
      exact List.length_pos_iff.2 hbytes
    refine ⟨?_, ?_, ?_⟩
    · rw [hopened, packets_open, List.map_append, List.pairwise_append]
      refine ⟨hsorted, List.pairwise_singleton _ _, ?_⟩
      intro start hstart time htime
      obtain ⟨q, hq, rfl⟩ := List.mem_map.1 hstart
      rw [List.mem_singleton.1 htime]
      exact hbegun q hq
    · intro q hq
      rw [hopened, packets_open, List.mem_append, List.mem_singleton] at hq
      rcases hq with hq | rfl
      · exact hbegun q hq
      · exact UInt64.le_refl _
    · intro q hq
      rw [hopened, packets_open, List.mem_append, List.mem_singleton] at hq
      rcases hq with hq | rfl
      · exact hwhole q hq
      · exact hsize

end Timely

/-- The packets that are left have times of those that were there, in their order. -/
theorem start_dropFront (n : Nat) (packets : List Packet) :
    ((dropFront n packets).map Packet.start).Sublist (packets.map Packet.start) := by
  cases packets with
  | nil => exact List.Sublist.refl _
  | cons p rest =>
    simp only [dropFront]
    split
    · exact List.Sublist.refl _
    · split
      · exact List.sublist_cons_self _ _
      · exact List.Sublist.refl _

theorem size_dropFront {n : Nat} {packets : List Packet} (h : ∀ p ∈ packets, 0 < p.size) :
    ∀ p ∈ dropFront n packets, 0 < p.size := by
  cases packets with
  | nil => exact h
  | cons p rest =>
    simp only [dropFront]
    split
    · exact h
    · split
      · exact fun q hq => h q (List.mem_cons_of_mem _ hq)
      · rename_i hsize
        intro q hq
        rcases List.mem_cons.1 hq with rfl | hq
        · have hlength := (p.dropBytes n).length_payload
          rw [Packet.payload_dropBytes, List.length_drop, Packet.length_payload] at hlength
          omega
        · exact h q (List.mem_cons_of_mem _ hq)

/-- The packets since a position stand in the order of time, and none is without bytes. -/
theorem Timely.packetsSince {r : Reconstruction} {now : UInt64} (h : Timely r now)
    (p : Position) :
    ((r.packetsSince p).map Packet.start).Pairwise (· ≤ ·) ∧
      ∀ q ∈ r.packetsSince p, 0 < q.size := by
  obtain ⟨hsorted, -, hwhole⟩ := h
  unfold Reconstruction.packetsSince
  refine ⟨?_, ?_⟩
  · refine hsorted.sublist ((start_dropFront _ _).trans ?_)
    exact (List.drop_sublist _ _).map _
  · exact size_dropFront fun q hq => hwhole q (List.mem_of_mem_drop hq)

end Reconstruction

end Wiretap
