import Mathlib.Data.List.Infix
import Wiretap.Proofs.Traffic.Runs
/-!
# A position cuts the bytes exactly

Whoever remembers the position of a reconstruction and asks later what came since gets it to the
byte: **no byte twice and none left out**.  The packet that was open at the position may have grown
meanwhile, or it may have been closed, with or without more bytes; it may still be the last one.
In each case the packets before it are dropped, and of the packet itself the bytes that it had.
When that leaves nothing of it, it is dropped too.

Two facts carry this.  The bytes since a position are those that were fed since (`Since.fed`), and
what a packet has once it keeps in front (`bytesAt_prefix_fed`), so that the bytes to be dropped
are the ones at its front.

* `packetsSince_cuts` — the packets since a position, or since a later one, and what a position
  gives that was never taken.
-/

namespace Wiretap

/-- The bytes that are fed, each with its tag. -/
def Feed.tagged : Feed → List TaggedByte
  | .append chunk => chunk.tagged
  | .flush => []

namespace Packet

theorem dropBytes_zero (p : Packet) : p.dropBytes 0 = p := by
  rw [dropBytes, Nat.sub_zero, size, List.take_length]

end Packet

namespace Reconstruction

variable {start r : Reconstruction} {bytes : List TaggedByte}

/-- **The bytes since a position** are those that were fed since.  By induction on the feed. -/
theorem Since.fed (h : Since start bytes r) (feed : List Feed) :
    Since start (bytes ++ feed.flatMap Feed.tagged) (r.fed feed) := by
  induction feed generalizing r bytes with
  | nil =>
    rw [List.flatMap_nil, List.append_nil]
    exact h
  | cons fed rest ih =>
    rw [List.flatMap_cons, ← List.append_assoc]
    cases fed with
    | append chunk => exact ih (h.append chunk)
    | flush =>
      rw [Feed.tagged, List.append_nil]
      exact ih h.flush

/-- All packets have all the bytes that were fed. -/
theorem tagged_ofFeed (connection : ConnectionId) (threshold : UInt64) (feed : List Feed) :
    (ofFeed connection threshold feed).packets.flatMap Packet.tagged =
      feed.flatMap Feed.tagged := by
  have hblank : Since { connection, threshold } [] { connection, threshold } := .here rfl rfl
  exact (hblank.fed feed).flow

/-- No packet is empty. -/
theorem filled_ofFeed {connection : ConnectionId} {threshold : UInt64} {feed : List Feed}
    {p : Packet} (hp : p ∈ (ofFeed connection threshold feed).packets) : 0 < p.size := by
  obtain ⟨run, hcarries⟩ := exists_run_of_mem hp
  rw [← p.length_payload]
  exact List.length_pos_iff.2 hcarries.filled

/-! ## What a packet has it keeps -/

/-- The bytes of the packet with a number; a packet that is not there yet has none. -/
def bytesAt (r : Reconstruction) (i : Nat) : List UInt8 :=
  (r.packets[i]?.map Packet.payload).getD []

/-- Behind the last packet there are no bytes. -/
theorem bytesAt_of_length_le {i : Nat} (h : r.packets.length ≤ i) : r.bytesAt i = [] := by
  rw [bytesAt, List.getElem?_eq_none h]
  rfl

/-- Behind the closed packets are the bytes of the open one. -/
theorem bytesAt_closed (r : Reconstruction) : (r.bytesAt r.closed.length).length = r.openSize := by
  rw [bytesAt, packets, List.getElem?_append_right (Nat.le_refl _), Nat.sub_self, openSize]
  cases r.current with
  | none => rfl
  | some p => exact p.length_payload

/-- The bytes at a place are the payload of the packet there. -/
theorem bytesAt_of_drop {i : Nat} {p : Packet} {rest : List Packet}
    (h : r.packets.drop i = p :: rest) : r.bytesAt i = p.payload := by
  have hget : r.packets[i]? = some p := by
    rw [← List.head?_drop, h]
    rfl
  rw [bytesAt, hget]
  rfl

/-- One step adds bytes at the end of the open packet, or a packet at the end of all. -/
theorem bytesAt_prefix_take (r : Reconstruction) (fed : Feed) (i : Nat) :
    r.bytesAt i <+: (r.take fed).bytesAt i := by
  cases fed with
  | flush =>
    rw [take, bytesAt, bytesAt, packets_flush]
  | append chunk =>
    rw [take]
    rcases append_cases r chunk with ⟨-, hsame⟩ | ⟨p, hcurrent, -, hgrown⟩ | ⟨-, hopened⟩
    · rw [hsame]
    · have hbefore : r.packets = r.closed ++ [p] := by
        rw [packets, hcurrent]
        rfl
      have hafter : (r.append chunk).packets = r.closed ++ [p.extend chunk] := by
        rw [hgrown]
        rfl
      rw [bytesAt, bytesAt, hbefore, hafter]
      rcases Nat.lt_trichotomy i r.closed.length with hlt | heq | hgt
      · rw [List.getElem?_append_left hlt, List.getElem?_append_left hlt]
      · rw [heq, List.getElem?_concat_length, List.getElem?_concat_length]
        exact ⟨chunk.bytes, (p.payload_extend chunk).symm⟩
      · have hlength : (r.closed ++ [p]).length ≤ i := by
          rw [List.length_append, List.length_singleton]
          omega
        rw [List.getElem?_eq_none hlength]
        exact List.nil_prefix
    · rcases Nat.lt_or_ge i r.packets.length with hlt | hge
      · rw [bytesAt, bytesAt, hopened, packets_open, List.getElem?_append_left hlt]
      · rw [bytesAt_of_length_le hge]
        exact List.nil_prefix

/-- The bytes at a place only grow. -/
theorem bytesAt_prefix_fed (r : Reconstruction) (feed : List Feed) (i : Nat) :
    r.bytesAt i <+: (r.fed feed).bytesAt i := by
  induction feed generalizing r with
  | nil => exact List.prefix_refl _
  | cons fed rest ih => exact (r.bytesAt_prefix_take fed i).trans (ih (r.take fed))

/-! ## What is cut off -/

/-- **Packets that go on where another moment ended.**  With the packets of that moment they have
all the bytes, and none of them is empty.  They are packets of the later moment unchanged, but for
the first, which comes without the bytes that it had. -/
structure Resumes (before after : Reconstruction) (packets : List Packet) : Prop where
  flow : after.packets.flatMap Packet.tagged =
    before.packets.flatMap Packet.tagged ++ packets.flatMap Packet.tagged
  filled : ∀ p ∈ packets, 0 < p.size
  whole : packets = [] ∨ ∃ i p first rest, after.packets.drop i = p :: rest ∧
    packets = first :: rest ∧ first = p.dropBytes (before.bytesAt i).length ∧
    p.payload = before.bytesAt i ++ first.payload

/-- A packet that loses the bytes it had is left with those that came behind them. -/
theorem payload_resumed {before after : Reconstruction}
    (hkept : ∀ i, before.bytesAt i <+: after.bytesAt i) {i : Nat} {p : Packet} {rest : List Packet}
    (h : after.packets.drop i = p :: rest) :
    p.payload = before.bytesAt i ++ (p.dropBytes (before.bytesAt i).length).payload := by
  have hprefix := hkept i
  rw [bytesAt_of_drop h] at hprefix
  rw [Packet.payload_dropBytes]
  exact (List.prefix_iff_eq_append.1 hprefix).symm

/-- The packets that were there when the position was taken are dropped, but for the open one, which
loses what it had; the case in which nothing of that is left is the one that skips a packet. -/
theorem packetsSince_whole {before after : Reconstruction}
    (hreaches : after.reaches before.position = true)
    (hkept : ∀ i, before.bytesAt i <+: after.bytesAt i) :
    after.packetsSince before.position = [] ∨ ∃ i p first rest,
      after.packets.drop i = p :: rest ∧ after.packetsSince before.position = first :: rest ∧
        first = p.dropBytes (before.bytesAt i).length ∧
        p.payload = before.bytesAt i ++ first.payload := by
  have hlength := before.bytesAt_closed
  rw [packetsSince_of_reaches hreaches]
  cases hdrop : after.packets.drop before.closed.length with
  | nil => exact .inl rfl
  | cons p rest =>
    rw [dropFront]
    by_cases hzero : before.openSize = 0
    · rw [if_pos hzero]
      refine .inr ⟨before.closed.length, p, _, rest, hdrop, rfl, ?_, ?_⟩
      · rw [hlength, hzero, p.dropBytes_zero]
      · have hpayload := payload_resumed hkept hdrop
        rw [hlength, hzero, p.dropBytes_zero] at hpayload
        exact hpayload
    · rw [if_neg hzero]
      by_cases hsize : p.size ≤ before.openSize
      · rw [if_pos hsize]
        cases rest with
        | nil => exact .inl rfl
        | cons q rest =>
          have hnext : after.packets.drop (before.closed.length + 1) = q :: rest := by
            rw [← List.drop_drop, hdrop, List.drop_one, List.tail_cons]
          have hnew : before.bytesAt (before.closed.length + 1) = [] := by
            apply bytesAt_of_length_le
            rw [packets, List.length_append]
            have hopen := before.current.length_toList_le
            omega
          have hpayload := payload_resumed hkept hnext
          refine .inr ⟨_, q, q, rest, hnext, rfl, ?_, ?_⟩
          · rw [hnew, List.length_nil, q.dropBytes_zero]
          · rw [hnew]
            rfl
      · rw [if_neg hsize]
        refine .inr ⟨before.closed.length, p, _, rest, hdrop, rfl, ?_, ?_⟩
        · rw [hlength]
        · rw [← hlength]
          exact payload_resumed hkept hdrop

/-- However many bytes are dropped in front, what is left is an end of the bytes. -/
theorem suffix_dropFront (n : Nat) (packets : List Packet) :
    (dropFront n packets).flatMap Packet.tagged <:+ packets.flatMap Packet.tagged := by
  cases packets with
  | nil => exact List.suffix_refl _
  | cons p rest =>
    rw [dropFront, List.flatMap_cons]
    split
    · exact List.suffix_refl _
    · split
      · exact List.suffix_append _ _
      · rw [List.flatMap_cons, Packet.tagged_dropBytes]
        exact ⟨p.tagged.take n, by rw [← List.append_assoc, List.take_append_drop]⟩

/-- What is told since a position is the end of all that there is. -/
theorem suffix_packetsSince (r : Reconstruction) (position : Position) :
    (r.packetsSince position).flatMap Packet.tagged <:+ r.packets.flatMap Packet.tagged := by
  unfold packetsSince
  refine (suffix_dropFront _ _).trans ?_
  exact (List.drop_suffix _ _).flatMap Packet.tagged

/-- **A position cuts the bytes exactly.**  What comes since a position goes on where the packets
ended then.  Between a position and a later one are the bytes that were fed between them.  And a
position that was never taken still gives an end of the bytes, in packets that are not empty. -/
theorem packetsSince_cuts (connection : ConnectionId) (threshold : UInt64)
    (first second third : List Feed) (never : Position) :
    let r := ofFeed connection threshold first
    let later := ofFeed connection threshold (first ++ second)
    let now := ofFeed connection threshold (first ++ second ++ third)
    Resumes r now (now.packetsSince r.position) ∧
      (now.packetsSince r.position).flatMap Packet.tagged =
        second.flatMap Feed.tagged ++
          (now.packetsSince later.position).flatMap Packet.tagged ∧
      (now.packetsSince never).flatMap Packet.tagged <:+ now.packets.flatMap Packet.tagged ∧
      ∀ p ∈ now.packetsSince never, 0 < p.size := by
  intro r later now
  have hlater : now = later.fed third := ofFeed_append _ _ _ _
  have hnow : now = r.fed (second ++ third) := by
    rw [hlater, fed_append]
    exact congrArg (fed · third) (ofFeed_append _ _ _ _)
  have hsince : Since r ((second ++ third).flatMap Feed.tagged) now := by
    rw [hnow]
    exact (Since.here rfl rfl : Since r [] r).fed (second ++ third)
  have hsinceLater : Since later (third.flatMap Feed.tagged) now := by
    rw [hlater]
    exact (Since.here rfl rfl : Since later [] later).fed third
  have hfilled : ∀ position, ∀ p ∈ now.packetsSince position, 0 < p.size := by
    intro position
    exact size_dropFront fun p hp => filled_ofFeed (List.mem_of_mem_drop hp)
  refine ⟨⟨?_, hfilled r.position, ?_⟩, ?_, now.suffix_packetsSince never, hfilled never⟩
  · rw [hsince.tagged_packetsSince, tagged_ofFeed, tagged_ofFeed, List.append_assoc,
      List.flatMap_append]
  · refine packetsSince_whole hsince.reaches fun i => ?_
    rw [hnow]
    exact r.bytesAt_prefix_fed _ i
  · rw [hsince.tagged_packetsSince, hsinceLater.tagged_packetsSince, List.flatMap_append]

/-- The packet that is open at the position takes another byte before it is closed, and one that was
closed as it stood shows no more. -/
example :
    let sent := fun (bytes : List UInt8) (time : UInt64) =>
      Feed.append { direction := .sent, bytes, time, thread := ⟨1, none⟩ }
    let r := ofFeed ⟨⟨"db", 5432⟩, 0, ⟨1, none⟩, none⟩ 5 [sent [1, 2] 10]
    ((r.fed [sent [3] 11, .flush, sent [4] 12]).packetsSince r.position).map Packet.payload =
        [[3], [4]] ∧
      ((r.fed [.flush, sent [4] 12]).packetsSince r.position).map Packet.payload = [[4]] := by
  decide +kernel

end Reconstruction

end Wiretap
