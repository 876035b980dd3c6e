import Mathlib.Data.List.Nodup
import Wiretap.Proofs.Application.Streams
import Wiretap.Proofs.Traffic.Groups
/-!
# A window shows the bytes that moved in it

A report of the packets in a window, grouped by connection, has for every stream the bytes that
moved on it since the window began, in the order of the calls, and no group for a stream on which
none did (`traffic_window_exact`).

The ledger keeps packets for each identity.  What is known of them is `Recorded`: the bytes since
the beginning of the window, which `Reconstruction.Since` cuts out whatever the packets are, and
that they stand in the order of time, so that the report does not sort anything away.
-/

namespace Wiretap

open Reconstruction

/-- The readings of the clock that a call took. -/
def Happening.readings : Happening → List UInt64
  | .statement c => [c.timing.start, c.timing.finish]
  | .connect c => [c.timing.start, c.timing.finish]
  | .transfer c => [c.timing.start, c.timing.finish]
  | _ => []

/-- The bytes of a transfer with their tag. -/
def TransferCall.tagged (c : TransferCall) : List TaggedByte :=
  Wiretap.tagged c.caller.thread c.direction c.bytes

namespace Happening

/-- When the transfers among happenings were done. -/
def times (happenings : List Happening) : List UInt64 :=
  (happenings.filterMap transfer?).map fun c => c.timing.finish

/-- The bytes that were transferred under an identity. -/
def bytesUnder (id : ConnectionId) (happenings : List Happening) : List TaggedByte :=
  ((happenings.filterMap transfer?).filter fun c => c.id == id).flatMap TransferCall.tagged

theorem times_append (first second : List Happening) :
    times (first ++ second) = times first ++ times second := by
  rw [times, List.filterMap_append, List.map_append]
  rfl

theorem times_sublist (happenings : List Happening) :
    (times happenings).Sublist (happenings.flatMap readings) := by
  induction happenings with
  | nil => exact List.Sublist.refl _
  | cons h rest ih =>
    rw [List.flatMap_cons]
    cases h with
    | transfer c => exact List.Sublist.cons _ (ih.cons_cons _)
    | _ => exact ih.trans (List.sublist_append_right _ _)

theorem bytesUnder_cons_transfer (id : ConnectionId) (c : TransferCall)
    (rest : List Happening) :
    bytesUnder id (.transfer c :: rest) =
      (if (c.id == id) = true then c.tagged else []) ++ bytesUnder id rest := by
  unfold bytesUnder
  rw [List.filterMap_cons]
  simp only [transfer?, List.filter_cons]
  split
  · exact List.flatMap_cons
  · rfl

end Happening

/-- What is known of the packets of one identity: the bytes since the position of `start`, and that
the packets are timely.  Where nothing is kept yet, there were no bytes at all. -/
structure Recorded (start : Reconstruction) (bytes : List TaggedByte) (now : UInt64)
    (kept : Option Reconstruction) : Prop where
  since : ∀ r, kept = some r → start.Since bytes r
  timely : ∀ r, kept = some r → r.Timely now
  nothing : kept = none → start.closed = [] ∧ start.current = none ∧ bytes = []

namespace Recorded

variable {start : Reconstruction} {bytes : List TaggedByte} {now : UInt64}
  {kept : Option Reconstruction}

theorem later (h : Recorded start bytes now kept) {now' : UInt64} (hnow : now ≤ now') :
    Recorded start bytes now' kept :=
  ⟨h.since, fun r hr => (h.timely r hr).later hnow, h.nothing⟩

theorem flush (h : Recorded start bytes now kept) :
    Recorded start bytes now (kept.map Reconstruction.flush) := by
  obtain ⟨hsince, htimely, hnothing⟩ := h
  refine ⟨?_, ?_, ?_⟩
  · intro r hr
    obtain ⟨r', hr', rfl⟩ := Option.map_eq_some_iff.1 hr
    exact (hsince r' hr').flush
  · intro r hr
    obtain ⟨r', hr', rfl⟩ := Option.map_eq_some_iff.1 hr
    exact (htimely r' hr').flush
  · exact fun hnone => hnothing (Option.map_eq_none_iff.1 hnone)

theorem append (h : Recorded start bytes now kept) (connection : ConnectionId)
    (threshold : UInt64) {chunk : Chunk} (hnow : now ≤ chunk.time) :
    Recorded start (bytes ++ chunk.tagged) chunk.time
      (some ((kept.getD { connection, threshold }).append chunk)) := by
  have hbefore : start.Since bytes (kept.getD { connection, threshold }) ∧
      (kept.getD { connection, threshold }).Timely now := by
    cases hkept : kept with
    | none =>
      obtain ⟨hclosed, hcurrent, hbytes⟩ := h.nothing hkept
      rw [hbytes]
      exact ⟨.here hclosed.symm hcurrent.symm, .blank connection threshold now⟩
    | some r => exact ⟨h.since r hkept, h.timely r hkept⟩
  refine ⟨?_, ?_, fun hnone => by cases hnone⟩
  · rintro r hr
    cases hr
    exact hbefore.1.append chunk
  · rintro r hr
    cases hr
    exact hbefore.2.append hnow

end Recorded

namespace Ledger

/-- A chunk changes the reconstruction of its connection, and of no other. -/
theorem get?_append (l : Ledger) (id key : ConnectionId) {chunk : Chunk}
    (hbytes : chunk.bytes.isEmpty = false) :
    (l.append id chunk).traffic.get? key =
      if (id == key) = true then
        some (((l.traffic.get? key).getD { connection := id, threshold := l.threshold }).append
          chunk)
      else l.traffic.get? key := by
  unfold append
  rw [hbytes, if_neg Bool.false_ne_true]
  by_cases hkey : (id == key) = true
  · rw [if_pos hkey, ← Table.get?_congr _ hkey, ← Table.get?_congr _ hkey]
    exact Table.get?_alter_self _ _ _
  · rw [if_neg hkey]
    exact Table.get?_alter_other _ (Bool.eq_false_iff.2 hkey) _

theorem get?_flush (l : Ledger) (id key : ConnectionId) :
    (l.flush id).traffic.get? key =
      if (id == key) = true then (l.traffic.get? key).map Reconstruction.flush
      else l.traffic.get? key := by
  have hcontains := l.traffic.contains_eq_isSome id
  unfold flush
  by_cases hkey : (id == key) = true
  · rw [if_pos hkey, ← Table.get?_congr _ hkey, ← Table.get?_congr _ hkey, hcontains]
    cases hkept : l.traffic.get? id with
    | none => exact hkept
    | some r =>
      have hself := Table.get?_alter_self l.traffic id fun packets =>
        (packets.getD { connection := id, threshold := l.threshold }).flush
      rw [hkept] at hself
      exact hself
  · rw [if_neg hkey]
    split
    · exact Table.get?_alter_other _ (Bool.eq_false_iff.2 hkey) _
    · rfl

/-- The packets since a position are asked for under an identity, whoever's name it has. -/
theorem trafficSince_congr {positions : Table ConnectionId Position} (k k' : ConnectionId)
    (r : Reconstruction) (hk : (k == k') = true) :
    (let packets := r.packetsSince ((positions.get? k).getD {})
      if packets.isEmpty then none else some packets) =
      let packets := r.packetsSince ((positions.get? k').getD {})
      if packets.isEmpty then none else some packets := by
  rw [positions.get?_congr hk]

/-- A transfer adds its bytes to what is recorded under its identity, and nothing to the rest. -/
theorem recorded_transfer {s : Settings} (hmonitor : s.monitorSockets = true)
    (hcapture : s.captureTraffic = true) {l : Ledger} {key : ConnectionId}
    {start : Reconstruction} {bytes : List TaggedByte} {now : UInt64} {c : TransferCall}
    (hnow : now ≤ c.timing.finish) (h : Recorded start bytes now (l.traffic.get? key)) :
    Recorded start (bytes ++ if (c.id == key) = true then c.tagged else []) c.timing.finish
      ((l.note s (.transfer c)).traffic.get? key) := by
  simp only [note, if_pos hmonitor, hcapture, Bool.true_and]
  cases hempty : c.bytes.isEmpty with
  | true =>
    have hnone : c.tagged = [] := by
      rw [TransferCall.tagged, List.isEmpty_iff.1 hempty]
      rfl
    simp only [hnone, ite_self, List.append_nil, Bool.not_true, Bool.false_eq_true, if_false]
    exact h.later hnow
  | false =>
    have hget := get?_append (l.recordSocket (Tap.identityOn c.id c.caller.thread)
      (.ofGain c.gain)) c.id key (show (c.chunk s).bytes.isEmpty = false from hempty)
    rw [Bool.not_false, if_pos rfl, hget]
    by_cases hkey : (c.id == key) = true
    · rw [if_pos hkey, if_pos hkey]
      exact h.append c.id _ (show now ≤ (c.chunk s).time from hnow)
    · rw [if_neg hkey, if_neg hkey, List.append_nil]
      exact h.later hnow

/-- What is not a transfer adds no bytes to what is recorded. -/
theorem recorded_other {s : Settings} {l : Ledger} {key : ConnectionId} {start : Reconstruction}
    {bytes : List TaggedByte} {now : UInt64} {h : Happening} (htransfer : h.transfer? = none)
    (hcleared : h ≠ .cleared) (hkept : Recorded start bytes now (l.traffic.get? key)) :
    Recorded start bytes now ((l.note s h).traffic.get? key) := by
  cases h with
  | statement c =>
    simp only [note]
    split <;> exact hkept
  | connect c =>
    simp only [note]
    split <;> exact hkept
  | transfer c => cases htransfer
  | closing stream id =>
    show Recorded start bytes now ((l.flush id).traffic.get? key)
    rw [get?_flush]
    split
    · exact hkept.flush
    · exact hkept
  | cleared => exact absurd rfl hcleared

/-- **A run records what is transferred.**  The induction is on the happenings; the clock stands at
the last transfer that was done. -/
theorem noteAll_recorded {s : Settings} (hmonitor : s.monitorSockets = true)
    (hcapture : s.captureTraffic = true) {l : Ledger} {key : ConnectionId}
    {start : Reconstruction} {bytes : List TaggedByte} {now : UInt64}
    {happenings : List Happening} (hcleared : .cleared ∉ happenings)
    (htimes : (now :: Happening.times happenings).Pairwise (· ≤ ·))
    (h : Recorded start bytes now (l.traffic.get? key)) :
    ∃ now' ∈ now :: Happening.times happenings,
      Recorded start (bytes ++ Happening.bytesUnder key happenings) now'
        ((l.noteAll s happenings).traffic.get? key) := by
  induction happenings generalizing l bytes now with
  | nil =>
    refine ⟨now, List.mem_cons_self, ?_⟩
    have hnone : Happening.bytesUnder key [] = [] := rfl
    rw [hnone, List.append_nil]
    exact h
  | cons x rest ih =>
    obtain ⟨hfirst, hrest⟩ := List.ne_and_not_mem_of_not_mem_cons hcleared
    -- `now` moves on only with a transfer, and then to its end
    cases htransfer : x.transfer? with
    | none =>
      have htimes' : Happening.times (x :: rest) = Happening.times rest := by
        rw [Happening.times, List.filterMap_cons, htransfer, Happening.times]
      have hbytes : Happening.bytesUnder key (x :: rest) = Happening.bytesUnder key rest := by
        rw [Happening.bytesUnder, List.filterMap_cons, htransfer, Happening.bytesUnder]
      rw [htimes'] at htimes ⊢
      rw [hbytes]
      exact ih hrest htimes (recorded_other htransfer hfirst.symm h)
    | some c =>
      obtain rfl : x = .transfer c := by
        cases x with
        | transfer c' =>
          cases htransfer
          rfl
        | _ => cases htransfer
      have htimes' : Happening.times (.transfer c :: rest) =
          c.timing.finish :: Happening.times rest := rfl
      rw [htimes'] at htimes ⊢
      obtain ⟨hnow, hlater⟩ := List.pairwise_cons.1 htimes
      have hstep := recorded_transfer hmonitor hcapture
        (hnow c.timing.finish List.mem_cons_self) h
      obtain ⟨now', hnow', hdone⟩ := ih hrest hlater hstep
      refine ⟨now', List.mem_cons_of_mem _ hnow', ?_⟩
      rw [Happening.bytesUnder_cons_transfer, ← List.append_assoc]
      exact hdone

end Ledger

namespace Application

variable {σ : Type}

/-- The streams to addresses that are asked for, on which a thread that is asked for moved bytes.
Each comes with its place. -/
def talkedStreams (a : Application σ) (actions : List (Action σ)) (matcher : AddressMatcher)
    (scope : Scope) (creator : Thread) : List (ConnectionId × Nat) :=
  (a.run actions).ids.zipIdx.filter fun stream =>
    matcher.accepts stream.1.address && !(a.flowOn actions scope creator stream.2).isEmpty

/-- What moved under the identity of a stream moved on the stream. -/
theorem flowOn_eq {a : Application σ} {actions : List (Action σ)}
    (hdistinct : (a.run actions).ids.Pairwise fun c d => c.connection ≠ d.connection)
    {id key : ConnectionId} {i : Nat} (hplace : (a.run actions).ids[i]? = some id)
    (hkey : (id == key) = true) (scope : Scope) (creator : Thread) :
    ((Happening.bytesUnder key (a.happenings actions)).filter
        (scope.selectsByte creator)).map Prod.snd = a.flowOn actions scope creator i := by
  have htagged := filter_tagged scope creator (fun c : TransferCall => c.caller.thread)
    TransferCall.direction TransferCall.bytes ((a.transfers actions).filter fun c => c.id == key)
  refine Eq.trans htagged ?_
  rw [List.filter_filter]
  refine congrArg (List.flatMap _) (List.filter_congr fun c hc => ?_)
  obtain ⟨h, hh, hcall⟩ := List.mem_filterMap.1 hc
  have hrefers := a.refersTo_run hh
  cases h with
  | transfer d =>
    cases hcall
    have hsame : (c.id == key) = (c.stream == i) := by
      rw [Bool.eq_iff_iff]
      constructor
      · intro hck
        have hid : (c.id == id) = true := BEq.trans hck (BEq.symm hkey)
        exact beq_iff_eq.2
          (place_unique hdistinct hrefers hplace (ConnectionId.connection_congr hid))
      · intro hstream
        have hsome : some c.id = some id := by
          rw [← hplace, ← eq_of_beq hstream]
          exact hrefers.symm
        rw [Option.some.inj hsome]
        exact hkey
    rw [hsame, Bool.and_comm]
  | _ => cases hcall

/-- Bytes that moved under an identity moved on a stream. -/
theorem place_of_bytesUnder {a : Application σ} {actions : List (Action σ)} {key : ConnectionId}
    (hbytes : Happening.bytesUnder key (a.happenings actions) ≠ []) :
    ∃ (i : Nat) (id : ConnectionId), (a.run actions).ids[i]? = some id ∧ (id == key) = true := by
  obtain ⟨byte, hbyte⟩ := List.exists_mem_of_ne_nil _ hbytes
  obtain ⟨c, hc, -⟩ := List.mem_flatMap.1 hbyte
  obtain ⟨hc, hkey⟩ := List.mem_filter.1 hc
  obtain ⟨h, hh, hcall⟩ := List.mem_filterMap.1 hc
  have hrefers := a.refersTo_run hh
  cases h with
  | transfer d =>
    cases hcall
    exact ⟨c.stream, c.id, hrefers, hkey⟩
  | _ => cases hcall

/-- The readings of the clock that the calls of a run took. -/
def readings (a : Application σ) (actions : List (Action σ)) : List UInt64 :=
  (a.happenings actions).flatMap Happening.readings

section Window

variable {a : Application σ} (hfresh : a.Fresh) {before after : List (Action σ)}
  (hmonitor : a.tap.settings.monitorSockets = true)
  (hcapture : a.tap.settings.captureTraffic = true)
  (hclear : Action.clear ∉ before ++ after)
  (hclock : (a.readings (before ++ after)).Pairwise (· ≤ ·))

include hfresh hmonitor hcapture hclear hclock

/-- What is recorded under an identity in a window that begins after `before`. -/
theorem window_recorded (key : ConnectionId) :
    ∃ start now,
      start.position = ((a.run before).tap.ledger.positions.get? key).getD {} ∧
      Recorded start (Happening.bytesUnder key ((a.run before).happenings after)) now
        ((a.run (before ++ after)).tap.ledger.traffic.get? key) := by
  have hsettings : (a.run before).tap.settings = a.tap.settings := a.run_settings before
  have hearly : Happening.cleared ∉ a.happenings before :=
    a.cleared_notMem fun h => hclear (List.mem_append_left _ h)
  have hlate : Happening.cleared ∉ (a.run before).happenings after :=
    (a.run before).cleared_notMem fun h => hclear (List.mem_append_right _ h)
  have htimes : ((0 :: Happening.times (a.happenings before)) ++
      Happening.times ((a.run before).happenings after)).Pairwise (· ≤ ·) := by
    have hsorted := hclock.sublist (Happening.times_sublist (a.happenings (before ++ after)))
    rw [happenings_append, Happening.times_append] at hsorted
    exact List.pairwise_cons.2 ⟨fun t _ => UInt64.zero_le, hsorted⟩
  obtain ⟨hbefore, hafter, hcross⟩ := List.pairwise_append.1 htimes
  -- up to the beginning of the window only the times matter, so the bytes that the first run
  -- recorded are dropped and the second run starts from none
  let blank : Reconstruction := { connection := key, threshold := 0 }
  have hblank : Recorded blank [] 0 (a.tap.ledger.content.traffic.get? key) := by
    rw [Ledger.content_traffic, hfresh.traffic]
    refine ⟨?_, ?_, fun _ => ⟨rfl, rfl, rfl⟩⟩
    · rintro r ⟨⟩
    · rintro r ⟨⟩
  obtain ⟨now, hnow, hmark⟩ := Ledger.noteAll_recorded hmonitor hcapture hearly hbefore hblank
  rw [← run_ledger, Ledger.content_traffic] at hmark
  have hstart : Recorded (((a.run before).tap.ledger.traffic.get? key).getD blank) [] now
      ((a.run before).tap.ledger.content.traffic.get? key) := by
    rw [Ledger.content_traffic]
    refine ⟨?_, hmark.timely, ?_⟩
    · intro r hr
      rw [hr]
      exact .here rfl rfl
    · intro hnone
      rw [hnone]
      exact ⟨rfl, rfl, rfl⟩
  have hlater : (now :: Happening.times ((a.run before).happenings after)).Pairwise (· ≤ ·) :=
    List.pairwise_cons.2 ⟨hcross now hnow, hafter⟩
  obtain ⟨now', -, hend⟩ := Ledger.noteAll_recorded (hsettings ▸ hmonitor) (hsettings ▸ hcapture)
    hlate hlater hstart
  rw [← run_ledger, Ledger.content_traffic, ← run_append, List.nil_append] at hend
  refine ⟨_, now', ?_, hend⟩
  have hpositions : (a.run before).tap.ledger.positions.get? key =
      ((a.run before).tap.ledger.traffic.get? key).map Reconstruction.position :=
    Table.get?_mapValues (fun _ _ _ _ => rfl) _ key
  rw [hpositions]
  cases (a.run before).tap.ledger.traffic.get? key <;> rfl

/-- A row of the packets in a window has the bytes that moved under its identity, in timely packets
of which none is without bytes. -/
theorem trafficSince_of_some {key : ConnectionId} {packets : List Packet}
    (hrow : ((a.run (before ++ after)).tap.ledger.trafficSince
      (a.run before).tap.ledger.positions).get? key = some packets) :
    packets ≠ [] ∧
      packets.flatMap Packet.tagged =
        Happening.bytesUnder key ((a.run before).happenings after) ∧
      (packets.map Packet.start).Pairwise (· ≤ ·) ∧ ∀ p ∈ packets, 0 < p.size := by
  obtain ⟨start, now, hposition, hrecorded⟩ :=
    window_recorded hfresh hmonitor hcapture hclear hclock key
  rw [Ledger.trafficSince, Table.get?_filterMap Ledger.trafficSince_congr] at hrow
  obtain ⟨r, hr, hpackets⟩ := Option.bind_eq_some_iff.1 hrow
  rw [← hposition] at hpackets
  have hcut := (hrecorded.since r hr).tagged_packetsSince
  have htimely := (hrecorded.timely r hr).packetsSince start.position
  by_cases hempty : (r.packetsSince start.position).isEmpty = true
  · simp [hempty] at hpackets
  · simp only [hempty] at hpackets
    cases hpackets
    exact ⟨fun h => hempty (List.isEmpty_iff.2 h), hcut, htimely.1, htimely.2⟩

/-- Where a window has no row for an identity, no bytes moved under it. -/
theorem bytesUnder_of_none {key : ConnectionId}
    (hrow : ((a.run (before ++ after)).tap.ledger.trafficSince
      (a.run before).tap.ledger.positions).get? key = none) :
    Happening.bytesUnder key ((a.run before).happenings after) = [] := by
  obtain ⟨start, now, hposition, hrecorded⟩ :=
    window_recorded hfresh hmonitor hcapture hclear hclock key
  rw [Ledger.trafficSince, Table.get?_filterMap Ledger.trafficSince_congr] at hrow
  cases hkept : (a.run (before ++ after)).tap.ledger.traffic.get? key with
  | none => exact (hrecorded.nothing hkept).2.2
  | some r =>
    rw [hkept, Option.bind_some, ← hposition] at hrow
    have hcut := (hrecorded.since r hkept).tagged_packetsSince
    by_cases hempty : (r.packetsSince start.position).isEmpty = true
    · rw [List.isEmpty_iff.1 hempty] at hcut
      exact hcut.symm
    · simp [hempty] at hrow

/-- A row of the packets in a window belongs to a stream. -/
theorem place_of_row {row : ConnectionId × List Packet}
    (hrow : row ∈ ((a.run (before ++ after)).tap.ledger.trafficSince
      (a.run before).tap.ledger.positions).rows) :
    ∃ (i : Nat) (id : ConnectionId),
      ((a.run before).run after).ids[i]? = some id ∧ (id == row.1) = true := by
  obtain ⟨hsome, hbytes, -, hsize⟩ :=
    trafficSince_of_some hfresh hmonitor hcapture hclear hclock (Table.get?_of_mem_rows hrow)
  refine place_of_bytesUnder fun hnone => hsome ?_
  rw [← hbytes] at hnone
  have hempty := Traffic.isEmpty_flatMap Packet.length_tagged hsize
  rw [hnone] at hempty
  exact List.isEmpty_iff.1 hempty.symm

variable (hdistinct : ((a.run before).run after).ids.Pairwise fun c d =>
  c.connection ≠ d.connection)

include hdistinct

/-- Such a row is kept in a report if and only if the stream is, and with the same bytes. -/
theorem row_eq_stream {row : ConnectionId × List Packet}
    (hrow : row ∈ ((a.run (before ++ after)).tap.ledger.trafficSince
      (a.run before).tap.ledger.positions).rows) {i : Nat} {id : ConnectionId}
    (hplace : ((a.run before).run after).ids[i]? = some id) (hkey : (id == row.1) = true)
    (matcher : AddressMatcher) (scope : Scope) (creator : Thread) :
    Traffic.groupOf row.1 = Traffic.groupOf id ∧
      (Traffic.ofThreads scope creator row.2).flatMap Packet.flow =
        (a.run before).flowOn after scope creator i ∧
      (matcher.accepts row.1.address && !(Traffic.ofThreads scope creator row.2).isEmpty) =
        (matcher.accepts id.address &&
          !((a.run before).flowOn after scope creator i).isEmpty) := by
  obtain ⟨-, hbytes, -, hsize⟩ :=
    trafficSince_of_some hfresh hmonitor hcapture hclear hclock (Table.get?_of_mem_rows hrow)
  have hconnection := ConnectionId.connection_congr hkey
  have hflow : (Traffic.ofThreads scope creator row.2).flatMap Packet.flow =
      (a.run before).flowOn after scope creator i := by
    rw [Traffic.flow_ofThreads, hbytes]
    exact flowOn_eq hdistinct hplace hkey scope creator
  have hempty : (Traffic.ofThreads scope creator row.2).isEmpty =
      ((a.run before).flowOn after scope creator i).isEmpty := by
    rw [← hflow]
    exact (Traffic.isEmpty_flatMap Traffic.length_flow fun p hp =>
      hsize p (List.mem_of_mem_filter hp)).symm
  have haddress : id.address = row.1.address := congrArg Prod.fst hconnection
  exact ⟨Traffic.groupOf_congr hconnection.symm, hflow, by rw [hempty, haddress]⟩

/-- No two rows of the packets in a window belong to one connection. -/
theorem rows_distinct :
    ((a.run (before ++ after)).tap.ledger.trafficSince
      (a.run before).tap.ledger.positions).rows.Pairwise fun x y =>
        x.1.connection ≠ y.1.connection := by
  refine (Table.distinct _).imp_of_mem fun {x y} hx hy hkeys hsame => ?_
  obtain ⟨i, id, hi, hid⟩ := place_of_row hfresh hmonitor hcapture hclear hclock hx
  obtain ⟨j, id', hj, hid'⟩ := place_of_row hfresh hmonitor hcapture hclear hclock hy
  have hconnection : id.connection = id'.connection :=
    (ConnectionId.connection_congr hid).trans
      (hsame.trans (ConnectionId.connection_congr hid').symm)
  obtain rfl := place_unique hdistinct hi hj hconnection
  rw [hi, Option.some.injEq] at hj
  rw [← hj] at hid'
  have hequal : (x.1 == y.1) = true := BEq.trans (BEq.symm hid) hid'
  rw [hequal] at hkeys
  cases hkeys

/-- The rows of a report are the streams on which bytes moved. -/
theorem rows_perm_talkedStreams (matcher : AddressMatcher) (scope : Scope) (creator : Thread) :
    ((((a.run (before ++ after)).tap.ledger.trafficSince
        (a.run before).tap.ledger.positions).rows.filter fun row =>
          matcher.accepts row.1.address &&
            !(Traffic.ofThreads scope creator row.2).isEmpty).map fun row =>
        (Traffic.groupOf row.1,
          (Traffic.ofThreads scope creator row.2).flatMap Packet.flow)).Perm
      (((a.run before).talkedStreams after matcher scope creator).map fun stream =>
        (Traffic.groupOf stream.1, (a.run before).flowOn after scope creator stream.2)) := by
  have hrows := rows_distinct hfresh hmonitor hcapture hclear hclock hdistinct
  have hne : ∀ c d : ConnectionId, c.connection ≠ d.connection →
      Traffic.groupOf c ≠ Traffic.groupOf d := by
    intro c d hcd hsame
    have hbeq : (Traffic.groupOf c == Traffic.groupOf d) = true := by
      rw [hsame]
      exact BEq.rfl
    rw [Traffic.groupOf_beq, beq_iff_eq] at hbeq
    exact hcd hbeq
  -- neither side has a group twice, so it is enough that they have the same groups
  refine (List.perm_ext_iff_of_nodup ?_ ?_).2 fun x => ?_
  · refine List.pairwise_map.2 ((hrows.filter _).imp fun {x y} hxy hsame => ?_)
    exact hne _ _ hxy (congrArg Prod.fst hsame)
  · refine List.pairwise_map.2 ?_
    refine List.Pairwise.imp (fun {x y} hxy hsame => ?_)
      (List.Pairwise.filter _ (zipIdx_distinct hdistinct))
    exact hne _ _ hxy (congrArg Prod.fst hsame)
  · rw [List.mem_map, List.mem_map]
    constructor
    · rintro ⟨row, hrow, rfl⟩
      obtain ⟨hrow, hkeep⟩ := List.mem_filter.1 hrow
      obtain ⟨i, id, hplace, hkey⟩ := place_of_row hfresh hmonitor hcapture hclear hclock hrow
      obtain ⟨hgroup, hflow, hkept⟩ := row_eq_stream hfresh hmonitor hcapture hclear hclock
        hdistinct hrow hplace hkey matcher scope creator
      rw [hkept] at hkeep
      refine ⟨(id, i), List.mem_filter.2 ⟨List.mem_zipIdx_iff_getElem?.2 hplace, hkeep⟩, ?_⟩
      rw [hgroup, hflow]
    · rintro ⟨⟨id, i⟩, hstream, rfl⟩
      obtain ⟨hplace, hkeep⟩ := List.mem_filter.1 hstream
      have hplace' := List.mem_zipIdx_iff_getElem?.1 hplace
      cases hget : ((a.run (before ++ after)).tap.ledger.trafficSince
          (a.run before).tap.ledger.positions).get? id with
      | none =>
        have hbytes := bytesUnder_of_none hfresh hmonitor hcapture hclear hclock hget
        have hflow := flowOn_eq hdistinct hplace' BEq.rfl scope creator
        rw [hbytes] at hflow
        simp [← hflow] at hkeep
      | some packets =>
        obtain ⟨key, hkey, hrow⟩ := Table.get?_eq_some_iff.1 hget
        obtain ⟨hgroup, hflow, hkept⟩ := row_eq_stream hfresh hmonitor hcapture hclear hclock
          hdistinct hrow hplace' (BEq.symm hkey) matcher scope creator
        refine ⟨(key, packets), List.mem_filter.2 ⟨hrow, hkept.trans hkeep⟩, ?_⟩
        rw [hgroup, hflow]

end Window

/-- **A window shows the bytes that moved in it.**  Let an application begin with no stream at a
ledger that knows no connection.  Let a spy be opened or reset after some actions, and others
follow; let the ledger never be cleared, the clock never run backwards, and fewer than `2 ^ 32`
connects go to each address.  Then a report by connection has a group for each stream to an address
that it asks for on which the threads that it asks for moved bytes since, and the group has just
these bytes, with their directions and in the order of the calls. -/
theorem traffic_window_exact {a : Application σ} (hfresh : a.Fresh)
    (before after : List (Action σ)) (s : Spy) (scope : Scope) (matcher : AddressMatcher)
    (hmonitor : a.tap.settings.monitorSockets = true)
    (hcapture : a.tap.settings.captureTraffic = true)
    (hbegins : s.BeginsAt (a.run before).tap.ledger) (hclear : Action.clear ∉ before ++ after)
    (hclock : (a.readings (before ++ after)).Pairwise (· ≤ ·))
    (hfew : ∀ address, ConnectCall.countTo address (a.connects (before ++ after)) < 2 ^ 32) :
    ((s.networkTraffic (a.run (before ++ after)).tap.ledger scope matcher
        .connectionOnly).map fun g => (g.1, g.2.flatMap Packet.flow)).Perm
      (((a.run before).talkedStreams after matcher scope s.creator).map fun stream =>
        (Traffic.groupOf stream.1,
          (a.run before).flowOn after scope s.creator stream.2)) := by
  have hdistinct := distinct_ids hfresh hclear hfew
  rw [run_append] at hdistinct
  have hrows := rows_distinct hfresh hmonitor hcapture hclear hclock hdistinct
  have hbaseline : s.baseline.traffic = (a.run before).tap.ledger.positions := by
    rw [hbegins.baseline]
    rfl
  unfold Spy.networkTraffic
  rw [hbaseline]
  refine (Traffic.group_perm scope s.creator matcher _ hrows fun row hrow => ?_).trans ?_
  · exact (trafficSince_of_some hfresh hmonitor hcapture hclear hclock
      (Table.get?_of_mem_rows hrow)).2.2.1
  · exact rows_perm_talkedStreams hfresh hmonitor hcapture hclear hclock hdistinct matcher scope
      s.creator

/-- A stream on which a packet is open when a window begins. -/
def openPacket : List (Action Unit) :=
  [.connect (α := Unit) (ε := String) ⟨⟨1, none⟩, "shop:1"⟩ ⟨"db", 5432⟩ fun s => (.ok (), s),
    .send (ε := String) ⟨⟨1, none⟩, "shop:2"⟩ 0 [1, 2] fun s => (.ok 2, s)]

/-- In the window the packet grows, another thread closes it, and an answer comes; then the traffic
is closed, and a last byte follows. -/
def talkOn : List (Action Unit) :=
  [.send (ε := String) ⟨⟨1, none⟩, "shop:2"⟩ 0 [3, 4] fun s => (.ok 1, s),
    .send (ε := String) ⟨⟨2, none⟩, "shop:3"⟩ 0 [5] fun s => (.ok 1, s),
    .receive (ε := String) ⟨⟨1, none⟩, "shop:4"⟩ 0 fun s => (.ok [6, 7], s),
    .closeTraffic 0,
    .send (ε := String) ⟨⟨1, none⟩, "shop:5"⟩ 0 [8] fun s => (.ok 1, s)]

/-- For the thread that opened the window, these are four bytes: one of the open packet, two of the
answer, and the last. -/
theorem traffic_window_exact_talkOn :
    (((Spy.begin ⟨1, none⟩ (ticking.run openPacket).tap.ledger).networkTraffic
        (ticking.run (openPacket ++ talkOn)).tap.ledger .current {}
        .connectionOnly).map fun g => (g.1, g.2.flatMap Packet.flow)).Perm
      [(⟨⟨"db", 5432⟩, some 0, none, none⟩,
        [(.sent, 3), (.received, 6), (.received, 7), (.sent, 8)])] :=
  traffic_window_exact (a := ticking) ⟨rfl, rfl, rfl, rfl⟩ openPacket talkOn
    (Spy.begin ⟨1, none⟩ (ticking.run openPacket).tap.ledger) .current {} rfl rfl
    (.begin ⟨1, none⟩) (by simp [openPacket, talkOn]) (by decide +kernel)
    fun address => Nat.lt_of_le_of_lt List.countP_le_length (by decide)

end Application

end Wiretap
