import Wiretap.Proofs.Window.Connections
import Wiretap.Proofs.Window.Traffic
/-!
# Counters and packets agree

The bytes that move on a connection are recorded twice: in the counter of the identity under which
the calling thread uses the connection, and in the packets that are kept under the identity of its
owner.  Neither record is made from the other.  Where sockets are monitored and their traffic is
captured, both say the same of every connection (`records_agree`).

* What the packets of a connection hold is what the transfers on it moved.  One note adds the bytes
  of its happening, whether a packet grows, is closed or is begun (`packetBytes_note`), and
  `packetBytes_noteAll` adds them up over a run.
* No packets are kept of a connection that is not counted.  One note keeps this (`covered_note`),
  and so does a run.
* What the counters of a connection say is what the calls on it counted, as long as no counter wraps
  (`countedBytes_countAll`), and that is what they moved (`sum_countsOn`).  The counters cannot be
  followed note by note, since one of them may stand for many calls and wraps on its own.
-/

namespace Wiretap

/-! ## What packets hold -/

namespace Packet

/-- The bytes of a packet that go in a direction. -/
def bytesIn (direction : Direction) (p : Packet) : Nat :=
  if p.direction = direction then p.payload.length else 0

end Packet

/-- The bytes of packets that go in a direction. -/
def bytesIn (direction : Direction) (packets : List Packet) : Nat :=
  (packets.map (Packet.bytesIn direction)).sum

/-- The bytes of packets add up. -/
theorem bytesIn_append (direction : Direction) (first second : List Packet) :
    bytesIn direction (first ++ second) = bytesIn direction first + bytesIn direction second := by
  rw [bytesIn, List.map_append, List.sum_append]
  rfl

theorem bytesIn_singleton (direction : Direction) (p : Packet) :
    bytesIn direction [p] = p.bytesIn direction := Nat.add_zero _

/-- The bytes of a chunk that go in a direction. -/
def Chunk.bytesIn (direction : Direction) (chunk : Chunk) : Nat :=
  if chunk.direction = direction then chunk.bytes.length else 0

namespace Packet

/-- A packet that begins with a chunk has the bytes of the chunk. -/
theorem bytesIn_ofChunk (connection : ConnectionId) (chunk : Chunk) (direction : Direction) :
    (ofChunk connection chunk).bytesIn direction = chunk.bytesIn direction := by
  rw [bytesIn, payload_ofChunk]
  rfl

/-- A packet takes only bytes of its own direction. -/
theorem bytesIn_extend {p : Packet} {chunk : Chunk} {threshold : UInt64}
    (h : p.continues chunk.direction chunk.thread chunk.time threshold = true)
    (direction : Direction) :
    (p.extend chunk).bytesIn direction = p.bytesIn direction + chunk.bytesIn direction := by
  simp only [continues, Bool.and_eq_true] at h
  have hdirection : p.direction = chunk.direction := eq_of_beq h.1.1
  have hsame : (p.extend chunk).direction = p.direction := rfl
  rw [bytesIn, bytesIn, Chunk.bytesIn, hsame, payload_extend, List.length_append, ← hdirection]
  split
  · rfl
  · rfl

end Packet

namespace Reconstruction

/-- **One call adds its bytes to the packets,** in its direction. -/
theorem bytesIn_append (r : Reconstruction) (chunk : Chunk) (direction : Direction) :
    bytesIn direction (r.append chunk).packets =
      bytesIn direction r.packets + chunk.bytesIn direction := by
  rcases append_cases r chunk with ⟨hempty, hsame⟩ | ⟨p, hcurrent, hcontinues, hgrown⟩ |
    ⟨-, hopened⟩
  · have hnone : chunk.bytesIn direction = 0 := by
      rw [Chunk.bytesIn, hempty]
      exact ite_self 0
    rw [hsame, hnone, Nat.add_zero]
  · have hbefore : r.packets = r.closed ++ [p] := by
      rw [packets, hcurrent]
      rfl
    have hafter : (r.append chunk).packets = r.closed ++ [p.extend chunk] := by
      rw [hgrown]
      rfl
    rw [hbefore, hafter, Wiretap.bytesIn_append, Wiretap.bytesIn_append, bytesIn_singleton,
      bytesIn_singleton, Packet.bytesIn_extend hcontinues, Nat.add_assoc]
  · rw [hopened, packets_open, Wiretap.bytesIn_append, bytesIn_singleton, Packet.bytesIn_ofChunk]

end Reconstruction

/-! ## The two records of a connection -/

/-- Whether an identity is one of a connection. -/
def ConnectionId.isOf (connection : Address × UInt32) (id : ConnectionId) : Bool :=
  id.connection == connection

/-- Equal identities belong to the same connections. -/
theorem ConnectionId.isOf_congr (connection : Address × UInt32) (k k' : ConnectionId)
    (h : (k == k') = true) : k.isOf connection = k'.isOf connection := by
  rw [isOf, isOf, connection_congr h]

namespace Ledger

/-- The bytes that the counters of a connection say were moved in a direction, over all threads and
call sites. -/
def countedBytes (l : Ledger) (connection : Address × UInt32) (direction : Direction) : Nat :=
  l.sockets.sumOver (·.isOf connection) fun counter => (counter.get direction.field).toNat

/-- The bytes that the packets of a connection hold in a direction. -/
def packetBytes (l : Ledger) (connection : Address × UInt32) (direction : Direction) : Nat :=
  l.packets.sumOver (·.isOf connection) (bytesIn direction)

/-- The bytes in packets are summed over the reconstructions of the connection. -/
theorem packetBytes_eq (l : Ledger) (connection : Address × UInt32) (direction : Direction) :
    l.packetBytes connection direction =
      l.traffic.sumOver (·.isOf connection) fun r => bytesIn direction r.packets := by
  have hrows : l.packets.rows = l.traffic.rows.map fun row => (row.1, row.2.packets) := by
    show l.traffic.rows.filterMap _ = _
    simp only [Option.map_some, List.filterMap_eq_map']
  rw [packetBytes, Table.sumOver, Table.sumOver, hrows, List.filter_map, List.map_map]
  rfl

end Ledger

/-- The bytes that a happening moves on a connection in a direction. -/
def Happening.bytesOn (connection : Address × UInt32) (direction : Direction) : Happening → Nat
  | .transfer c =>
    if c.id.isOf connection = true ∧ c.direction = direction then c.bytes.length else 0
  | _ => 0

namespace Ledger

variable {s : Settings} {l : Ledger} {connection : Address × UInt32} {direction : Direction}

/-- Appending adds the bytes of the chunk to the connection of the identity. -/
theorem packetBytes_append (l : Ledger) (id : ConnectionId) (chunk : Chunk) :
    (l.append id chunk).packetBytes connection direction =
      l.packetBytes connection direction +
        if id.isOf connection = true then chunk.bytesIn direction else 0 := by
  rw [packetBytes_eq, packetBytes_eq]
  unfold append
  by_cases hempty : chunk.bytes.isEmpty = true
  · have hnone : chunk.bytesIn direction = 0 := by
      rw [Chunk.bytesIn, List.isEmpty_iff.1 hempty]
      exact ite_self 0
    rw [if_pos hempty, hnone, ite_self, Nat.add_zero]
  · rw [if_neg hempty]
    refine l.traffic.sumOver_alter (ConnectionId.isOf_congr connection) ?_
    rw [Reconstruction.bytesIn_append]
    cases l.traffic.get? id with
    | none => rfl
    | some r => rfl

/-- Closing a packet adds nothing. -/
theorem packetBytes_flush (l : Ledger) (id : ConnectionId) :
    (l.flush id).packetBytes connection direction = l.packetBytes connection direction := by
  rw [packetBytes_eq, packetBytes_eq]
  unfold flush
  split
  · refine (l.traffic.sumOver_alter (n := 0) (ConnectionId.isOf_congr connection) ?_).trans ?_
    · rw [Reconstruction.packets_flush]
      cases l.traffic.get? id with
      | none => rfl
      | some r => rfl
    · rw [ite_self, Nat.add_zero]
  · rfl

/-- **One note adds the bytes of its happening to the packets.** -/
theorem packetBytes_note (hmonitor : s.monitorSockets = true) (hcapture : s.captureTraffic = true)
    {h : Happening} (hcleared : h ≠ .cleared) :
    (l.note s h).packetBytes connection direction =
      l.packetBytes connection direction + h.bytesOn connection direction := by
  cases h with
  | statement c =>
    simp only [note]
    split
    · rfl
    · rfl
  | connect c =>
    simp only [note, if_pos hmonitor]
    rfl
  | transfer c =>
    simp only [note, if_pos hmonitor, hcapture, Bool.true_and]
    have hchunk : (c.chunk s).bytesIn direction =
        if c.direction = direction then c.bytes.length else 0 := rfl
    cases hempty : c.bytes.isEmpty with
    | true =>
      have hnone : (Happening.transfer c).bytesOn connection direction = 0 := by
        rw [Happening.bytesOn, List.isEmpty_iff.1 hempty]
        exact ite_self 0
      rw [hnone]
      rfl
    | false =>
      rw [Bool.not_false, if_pos rfl, packetBytes_append, hchunk, Happening.bytesOn, ite_and]
      rfl
  | closing stream id => exact packetBytes_flush l id
  | cleared => exact absurd rfl hcleared

/-- The packets after a run hold what its transfers moved. -/
theorem packetBytes_noteAll (hmonitor : s.monitorSockets = true)
    (hcapture : s.captureTraffic = true) {happenings : List Happening}
    (hcleared : .cleared ∉ happenings) :
    (l.noteAll s happenings).packetBytes connection direction =
      l.packetBytes connection direction +
        (happenings.map (Happening.bytesOn connection direction)).sum := by
  induction happenings generalizing l with
  | nil => rfl
  | cons h rest ih =>
    obtain ⟨hfirst, hrest⟩ := List.ne_and_not_mem_of_not_mem_cons hcleared
    rw [noteAll_cons, ih hrest, packetBytes_note hmonitor hcapture hfirst.symm, List.map_cons,
      List.sum_cons, Nat.add_assoc]

/-! ## No packets without counters -/

/-- Packets are kept only of connections that are counted. -/
def Covered (l : Ledger) : Prop :=
  ∀ key, l.traffic.contains key = true →
    ∃ counter, l.sockets.contains counter = true ∧ counter.connection = key.connection

/-- Packets of an identity come about by a transfer under it and in no other way. -/
theorem contains_traffic_note {h : Happening} {key : ConnectionId}
    (hkey : (l.note s h).traffic.contains key = true) :
    l.traffic.contains key = true ∨ ∃ c, h = .transfer c ∧ (c.id == key) = true := by
  rw [Table.contains_eq_isSome] at hkey ⊢
  cases h with
  | statement c =>
    simp only [note] at hkey
    split at hkey
    · exact .inl hkey
    · exact .inl hkey
  | connect c =>
    simp only [note] at hkey
    split at hkey
    · exact .inl hkey
    · exact .inl hkey
  | transfer c =>
    by_cases hsame : (c.id == key) = true
    · exact .inr ⟨c, rfl, hsame⟩
    · left
      simp only [note] at hkey
      split at hkey
      · split at hkey
        · rename_i hmoved
          have hbytes : (c.chunk s).bytes.isEmpty = false := by
            rw [Bool.and_eq_true, Bool.not_eq_true'] at hmoved
            exact hmoved.2
          rw [get?_append _ _ _ hbytes, if_neg hsame] at hkey
          exact hkey
        · exact hkey
      · exact hkey
  | closing stream id =>
    left
    rw [note, get?_flush] at hkey
    split at hkey
    · rwa [Option.isSome_map] at hkey
    · exact hkey
  | cleared => cases hkey

/-- **One note keeps packets covered**: a transfer counts before its bytes are kept. -/
theorem covered_note (hmonitor : s.monitorSockets = true) (hcovered : l.Covered) {h : Happening}
    (hcleared : h ≠ .cleared) : (l.note s h).Covered := by
  intro key hkey
  rw [note_sockets hmonitor l hcleared]
  rcases contains_traffic_note hkey with hold | ⟨c, rfl, hsame⟩
  · obtain ⟨counter, hcounter, hconnection⟩ := hcovered key hold
    refine ⟨counter, ?_, hconnection⟩
    rw [contains_countAll, hcounter, Bool.true_or]
  · refine ⟨Tap.identityOn c.id c.caller.thread, ?_, ?_⟩
    · rw [contains_countAll, Bool.or_eq_true]
      exact .inr (List.any_eq_true.2 ⟨_, List.mem_cons_self, BEq.rfl⟩)
    · rw [StreamCall.identityOn_connection]
      exact ConnectionId.connection_congr hsame

/-- No packets are kept of a connection that is not counted, whatever happens but a clearing. -/
theorem covered_noteAll (hmonitor : s.monitorSockets = true) (hcovered : l.Covered)
    {happenings : List Happening} (hcleared : .cleared ∉ happenings) :
    (l.noteAll s happenings).Covered := by
  induction happenings generalizing l with
  | nil => exact hcovered
  | cons h rest ih =>
    obtain ⟨hfirst, hrest⟩ := List.ne_and_not_mem_of_not_mem_cons hcleared
    exact ih (covered_note hmonitor hcovered hfirst.symm) hrest

/-- In a covered ledger every list of packets has a counter of its connection. -/
theorem exists_counter (h : l.Covered) {row : ConnectionId × List Packet}
    (hrow : row ∈ l.packets.rows) :
    ∃ counter ∈ l.sockets.rows, counter.1.connection = row.1.connection := by
  obtain ⟨kept, hkept, hmade⟩ := List.mem_filterMap.1 hrow
  obtain ⟨packets, -, rfl⟩ := Option.map_eq_some_iff.1 hmade
  have hcontains : l.traffic.contains kept.1 = true := List.any_eq_true.2 ⟨kept, hkept, BEq.rfl⟩
  obtain ⟨key, hkey, hconnection⟩ := h kept.1 hcontains
  obtain ⟨counter, hcounter, hsame⟩ := List.any_eq_true.1 hkey
  exact ⟨counter, hcounter, (ConnectionId.connection_congr hsame).trans hconnection⟩

end Ledger

/-! ## Counters -/

/-- What a call adds to the counters of a connection, in the bytes of a direction. -/
def StreamCall.countsOn (connection : Address × UInt32) (direction : Direction) (c : StreamCall) :
    Nat :=
  if c.increment.key.isOf connection = true then c.gain direction.field else 0

/-- What a happening counts on a connection is what it moves there. -/
theorem Happening.countsOn_streamCall (connection : Address × UInt32) (direction : Direction)
    {h : Happening} {c : StreamCall} (hcall : h.streamCall? = some c) :
    c.countsOn connection direction = h.bytesOn connection direction := by
  cases h with
  | connect d =>
    cases hcall
    have hnone : d.gain direction.field = 0 := by cases direction <;> rfl
    show (if _ then d.gain direction.field else 0) = 0
    rw [hnone, ite_self]
  | transfer d =>
    cases hcall
    have hgain : d.gain direction.field =
        if d.direction = direction then d.bytes.length else 0 := by cases direction <;> rfl
    have hof : (Tap.identityOn d.id d.caller.thread).isOf connection = d.id.isOf connection := by
      rw [ConnectionId.isOf, ConnectionId.isOf, StreamCall.identityOn_connection]
    show (if (Tap.identityOn d.id d.caller.thread).isOf connection = true then
      d.gain direction.field else 0) = _
    rw [hof, hgain, bytesOn, ite_and]
  | _ => cases hcall

/-- What is no call on a connection moves nothing. -/
theorem Happening.bytesOn_of_none (connection : Address × UInt32) (direction : Direction)
    {h : Happening} (hcall : h.streamCall? = none) : h.bytesOn connection direction = 0 := by
  cases h with
  | transfer d => cases hcall
  | _ => rfl

namespace Ledger

/-- Over a run, what is counted on a connection is what is moved there. -/
theorem sum_countsOn (connection : Address × UInt32) (direction : Direction)
    (happenings : List Happening) :
    ((happenings.filterMap Happening.streamCall?).map
        (StreamCall.countsOn connection direction)).sum =
      (happenings.map (Happening.bytesOn connection direction)).sum := by
  induction happenings with
  | nil => rfl
  | cons h rest ih =>
    rw [List.map_cons, List.sum_cons, ← ih]
    cases hcall : h.streamCall? with
    | none =>
      rw [List.filterMap_cons_none hcall, Happening.bytesOn_of_none _ _ hcall, Nat.zero_add]
    | some c =>
      rw [List.filterMap_cons_some hcall, List.map_cons, List.sum_cons,
        Happening.countsOn_streamCall _ _ hcall]

/-- **The counters of a connection add up to the calls on it.**  Each counter reads what was added
to it, and every call has added to one. -/
theorem countedBytes_countAll {l : Ledger} {calls : List StreamCall}
    (hsockets : l.sockets = countAll .empty (calls.map StreamCall.increment))
    (connection : Address × UInt32) (direction : Direction)
    (hfits : ∀ k, Increment.total (calls.map StreamCall.increment) k direction.field < 2 ^ 64) :
    l.countedBytes connection direction =
      (calls.map (StreamCall.countsOn connection direction)).sum := by
  let increments := calls.map StreamCall.increment
  have hread : ∀ row ∈ l.sockets.rows,
      (row.2.get direction.field).toNat = Increment.total increments row.1 direction.field := by
    intro row hrow
    have hreading : row.2.get direction.field = reading l.sockets row.1 direction.field := by
      rw [reading, Table.get?_of_mem_rows hrow]
      rfl
    have hempty : reading (.empty : Table ConnectionId Stats) row.1 direction.field = 0 :=
      Stats.get_zero _
    rw [hreading, hsockets, reading_countAll, hempty, UInt64.zero_add]
    exact UInt64.toNat_ofNat_of_lt' (hfits row.1)
  have hrows : ∀ i ∈ increments, l.sockets.contains i.key = true := by
    intro i hi
    rw [hsockets, contains_countAll, Bool.or_eq_true]
    exact .inr (List.any_eq_true.2 ⟨i, hi, BEq.rfl⟩)
  calc l.countedBytes connection direction
      = ((l.sockets.rows.filter fun row => row.1.isOf connection).map fun row =>
          Increment.total increments row.1 direction.field).sum := by
        refine congrArg List.sum (List.map_congr_left fun row hrow => ?_)
        exact hread row (List.mem_of_mem_filter hrow)
    _ = ((increments.filter fun i => i.key.isOf connection).map fun i =>
          i.gain direction.field).sum :=
        Baseline.sum_total_rows l.sockets (ConnectionId.isOf_congr connection) _ hrows
    _ = (calls.map (StreamCall.countsOn connection direction)).sum := by
        rw [Baseline.sum_filter_eq, List.map_map]
        rfl

end Ledger

namespace Application

variable {σ : Type}

/-- **The two records agree.**  Let an application begin at a ledger that knows no connection, let
sockets be monitored and their traffic captured, and let the ledger never be cleared.  After any
actions, as long as no counter of bytes has come to `2 ^ 64`, the counters of each connection, over
all threads and call sites, say just as many bytes in each direction as its packets hold; and
packets are kept only of connections that have a counter. -/
theorem records_agree {a : Application σ} (hfresh : a.Fresh) (actions : List (Action σ))
    (hmonitor : a.tap.settings.monitorSockets = true)
    (hcapture : a.tap.settings.captureTraffic = true) (hclear : Action.clear ∉ actions)
    (hfits : ∀ (k : ConnectionId) (direction : Direction),
      Increment.total ((a.streamCalls actions).map StreamCall.increment) k direction.field <
        2 ^ 64) :
    (∀ (connection : Address × UInt32) (direction : Direction),
      (a.run actions).tap.ledger.countedBytes connection direction =
        (a.run actions).tap.ledger.packetBytes connection direction) ∧
    ∀ row ∈ (a.run actions).tap.ledger.packets.rows,
      ∃ counter ∈ (a.run actions).tap.ledger.sockets.rows,
        counter.1.connection = row.1.connection := by
  have hcleared : Happening.cleared ∉ a.happenings actions := a.cleared_notMem hclear
  have htraffic : (a.run actions).tap.ledger.traffic =
      (a.tap.ledger.content.noteAll a.tap.settings (a.happenings actions)).traffic := by
    rw [← Ledger.content_traffic, run_ledger]
  have hsockets := a.run_sockets hmonitor hclear
  constructor
  · intro connection direction
    rw [hfresh.sockets] at hsockets
    have hblank : a.tap.ledger.content.packetBytes connection direction = 0 := by
      rw [Ledger.packetBytes_eq, Ledger.content_traffic, hfresh.traffic]
      rfl
    calc (a.run actions).tap.ledger.countedBytes connection direction
        = ((a.streamCalls actions).map (StreamCall.countsOn connection direction)).sum :=
          Ledger.countedBytes_countAll hsockets connection direction (hfits · direction)
      _ = ((a.happenings actions).map (Happening.bytesOn connection direction)).sum :=
          Ledger.sum_countsOn connection direction _
      _ = (a.tap.ledger.content.noteAll a.tap.settings (a.happenings actions)).packetBytes
            connection direction := by
          rw [Ledger.packetBytes_noteAll hmonitor hcapture hcleared, hblank, Nat.zero_add]
      _ = (a.run actions).tap.ledger.packetBytes connection direction := by
          rw [Ledger.packetBytes_eq, Ledger.packetBytes_eq, htraffic]
  · intro row hrow
    have hstart : a.tap.ledger.content.Covered := by
      intro key hkey
      rw [Ledger.content_traffic, hfresh.traffic] at hkey
      cases hkey
    have hend := Ledger.covered_noteAll hmonitor hstart hcleared
    rw [← run_ledger] at hend
    exact Ledger.exists_counter hend hrow

/-- Two threads talk on a connection, of which one packet grows, an answer comes, a read fails and a
packet is closed.  Both records say five bytes that were sent and two that were received. -/
theorem records_agree_talkOn :
    let talk := openPacket ++ talkOn ++
      [.receive (ε := String) ⟨⟨2, none⟩, "shop:6"⟩ 0 fun s => (.error "reset", s)]
    let l := (ticking.run talk).tap.ledger
    l.countedBytes (⟨"db", 5432⟩, 0) .sent = l.packetBytes (⟨"db", 5432⟩, 0) .sent ∧
      l.packetBytes (⟨"db", 5432⟩, 0) .sent = 5 ∧
      l.countedBytes (⟨"db", 5432⟩, 0) .received = l.packetBytes (⟨"db", 5432⟩, 0) .received ∧
      l.packetBytes (⟨"db", 5432⟩, 0) .received = 2 ∧
      ∀ row ∈ l.packets.rows, ∃ counter ∈ l.sockets.rows,
        counter.1.connection = row.1.connection := by
  intro talk l
  obtain ⟨hbytes, hcovered⟩ := records_agree (a := ticking) ⟨rfl, rfl, rfl, rfl⟩ talk rfl rfl
    (by simp [talk, openPacket, talkOn]) (fun k direction =>
      Nat.lt_of_le_of_lt (Increment.total_le_sum _ k _) (by cases direction <;> decide +kernel))
  exact ⟨hbytes _ _, by decide +kernel, hbytes _ _, by decide +kernel, hcovered⟩

end Application

end Wiretap
