import Mathlib.Data.List.Nodup
import Wiretap.Proofs.Application.Streams
import Wiretap.Proofs.Connections
/-!
# A window counts the streams that were used in it

A connection expectation that is held against a window observes the streams on which a call was
made since the window began: a stream is counted once, however many threads used it, and two
streams are counted as two, whatever their address.  Each has an event that names the bytes which
moved on it (`connection_window_exact`).

The counters know a stream under one identity for each thread that uses it, with a call site or
without.  The fold of a report puts identities together that agree in address and ordinal
(`connections_spec`), and two streams never agree in both (`Application.distinct_ids`).
-/

namespace Wiretap

/-- The quantity that counts the bytes of a direction. -/
def Direction.field : Direction → Stats.Field
  | .sent => .sent
  | .received => .received

/-- A transfer counts its bytes in its own direction. -/
theorem TransferCall.gain_field (c : TransferCall) (direction : Direction) :
    c.gain direction.field = c.flow.countP fun byte => byte.1 == direction := by
  have hcount : (c.flow.countP fun byte => byte.1 == direction) =
      c.bytes.countP fun _ => c.direction == direction := by
    rw [flow, List.countP_map]
    rfl
  rw [hcount]
  by_cases hsame : c.direction = direction
  · have hall : c.bytes.countP (fun _ => c.direction == direction) = c.bytes.length := by
      rw [hsame, beq_self_eq_true, List.countP_true]
    rw [hall]
    cases direction <;> simp only [gain, Direction.field, hsame, if_true]
  · have hnone : c.bytes.countP (fun _ => c.direction == direction) = 0 := by
      rw [beq_eq_false_iff_ne.2 hsame, List.countP_false]
      rfl
    rw [hnone]
    cases direction <;> simp only [gain, Direction.field, hsame, if_false]

/-- A call on a connection: the connect itself, a read or a write. -/
structure StreamCall where
  /-- The stream; none where the connect failed. -/
  stream : Option Nat
  id : ConnectionId
  thread : Thread
  gain : Gain

/-- The call on a connection that happened, if it was one. -/
def Happening.streamCall? : Happening → Option StreamCall
  | .connect c => some { stream := c.stream, id := c.id, thread := c.id.owner, gain := c.gain }
  | .transfer c =>
    some { stream := some c.stream, id := c.id, thread := c.caller.thread, gain := c.gain }
  | _ => none

namespace StreamCall

/-- What a call adds, and to which counter. -/
def increment (c : StreamCall) : Increment ConnectionId := ⟨Tap.identityOn c.id c.thread, c.gain⟩

/-- Under whatever thread it is used, a connection is the same. -/
theorem identityOn_connection (id : ConnectionId) (thread : Thread) :
    (Tap.identityOn id thread).connection = id.connection := by
  unfold Tap.identityOn
  split <;> rfl

theorem identityOn_address (id : ConnectionId) (thread : Thread) :
    (Tap.identityOn id thread).address = id.address :=
  congrArg Prod.fst (identityOn_connection id thread)

theorem identityOn_owner (id : ConnectionId) (thread : Thread) :
    (Tap.identityOn id thread).owner.id = thread.id := by
  unfold Tap.identityOn
  split
  · rename_i h
    exact (Thread.beq_iff.1 h).symm
  · rfl

end StreamCall

/-- Whether a call is on a connection to an address, and by a thread, that are asked for. -/
def StreamCall.selected (matcher : AddressMatcher) (scope : Scope) (creator : Thread)
    (c : StreamCall) : Bool :=
  matcher.accepts c.id.address && scope.selects c.thread creator

/-- A call is selected if what it counts is selected. -/
theorem StreamCall.selected_increment (matcher : AddressMatcher) (scope : Scope)
    (creator : Thread) (c : StreamCall) :
    (matcher.accepts c.increment.key.address && scope.selects c.increment.key.owner creator) =
      c.selected matcher scope creator := by
  rw [selected, ← identityOn_address c.id c.thread,
    ← scope.selects_congr (identityOn_owner c.id c.thread)]
  rfl

/-- What a connection expectation selects depends on the identity alone. -/
theorem ConnectionId.selected_congr (matcher : AddressMatcher) (scope : Scope) (creator : Thread)
    (k k' : ConnectionId) (h : (k == k') = true) :
    (matcher.accepts k.address && scope.selects k.owner creator) =
      (matcher.accepts k'.address && scope.selects k'.owner creator) := by
  have hkey := ConnectionId.beq_iff.1 h
  simp only [ConnectionId.key, Prod.mk.injEq] at hkey
  obtain ⟨haddress, -, howner, -⟩ := hkey
  rw [haddress, scope.selects_congr howner]

namespace Ledger

/-- A happening touches the connection counters only if it is a call on a connection. -/
theorem note_sockets {s : Settings} (hmonitor : s.monitorSockets = true) (l : Ledger)
    {h : Happening} (hcleared : h ≠ .cleared) :
    (l.note s h).sockets = countAll l.sockets (h.streamCall?.toList.map StreamCall.increment) := by
  cases h with
  | statement c =>
    simp only [note]
    split <;> rfl
  | connect c =>
    have hown : Tap.identityOn c.id c.id.owner = c.id := by
      rw [Tap.identityOn, if_pos BEq.rfl]
    have hcount : (l.note s (.connect c)).sockets = count l.sockets c.id (.ofGain c.gain) := by
      simp only [note, if_pos hmonitor]
      rfl
    rw [hcount]
    show _ = count l.sockets (Tap.identityOn c.id c.id.owner) _
    rw [hown]
    rfl
  | transfer c =>
    simp only [note, if_pos hmonitor]
    split
    · rw [append_frame]
      rfl
    · rfl
  | closing stream id =>
    rw [note, flush_frame]
    rfl
  | cleared => exact absurd rfl hcleared

end Ledger

namespace Application

variable {σ : Type}

/-- The calls of a run on connections. -/
def streamCalls (a : Application σ) (actions : List (Action σ)) : List StreamCall :=
  (a.happenings actions).filterMap Happening.streamCall?

/-- Each call on a stream counts one operation. -/
theorem eachOnce_streamCalls (a : Application σ) (actions : List (Action σ)) :
    Increment.EachOnce ((a.streamCalls actions).map StreamCall.increment) := by
  intro i hi
  obtain ⟨c, hc, rfl⟩ := List.mem_map.1 hi
  obtain ⟨h, -, hcall⟩ := List.mem_filterMap.1 hc
  cases h with
  | connect c' =>
    cases hcall
    rfl
  | transfer c' =>
    cases hcall
    rfl
  | _ => cases hcall

/-- The connection counters after a run. -/
theorem run_sockets (a : Application σ) {actions : List (Action σ)}
    (hmonitor : a.tap.settings.monitorSockets = true) (hclear : Action.clear ∉ actions) :
    (a.run actions).tap.ledger.sockets =
      Ledger.countAll a.tap.ledger.sockets
        ((a.streamCalls actions).map StreamCall.increment) := by
  rw [← Ledger.content_sockets, run_ledger]
  exact Ledger.noteAll_counters (fun l _ => Ledger.note_sockets hmonitor l) _
    (a.cleared_notMem hclear)

/-- What a window that began after `before` shows of the connection counters. -/
theorem observe_sockets (a : Application σ) (before after : List (Action σ)) {s : Spy}
    (hmonitor : a.tap.settings.monitorSockets = true)
    (hbegins : s.BeginsAt (a.run before).tap.ledger) (hclear : Action.clear ∉ after) :
    (s.observe (a.run (before ++ after)).tap.ledger).sockets =
      Baseline.gains
        (Ledger.countAll (a.run before).tap.ledger.sockets
          (((a.run before).streamCalls after).map StreamCall.increment))
        (a.run before).tap.ledger.sockets := by
  have hsettings : (a.run before).tap.settings = a.tap.settings := a.run_settings before
  have hnow := (a.run before).run_sockets (hsettings ▸ hmonitor) hclear
  rw [run_append, ← hnow, Spy.observe, hbegins.baseline]
  rfl

/-- The identities that a connection expectation selects in a window, with what they counted. -/
def selectedRows (a : Application σ) (before after : List (Action σ)) (s : Spy)
    (matcher : AddressMatcher) (scope : Scope) : List (ConnectionId × Stats) :=
  (s.observe (a.run (before ++ after)).tap.ledger).selectedSockets matcher scope

section Window

variable (a : Application σ) (before after : List (Action σ)) {s : Spy}
  (hmonitor : a.tap.settings.monitorSockets = true)
  (hbegins : s.BeginsAt (a.run before).tap.ledger) (hclear : Action.clear ∉ after)
  (hfits : Ledger.Fits (a.run before).tap.ledger.sockets
    (((a.run before).streamCalls after).map StreamCall.increment))
  (matcher : AddressMatcher) (scope : Scope)

include hmonitor hbegins hclear hfits

/-- The selected rows are those of the gains of the window that match and are in scope. -/
theorem selectedRows_eq :
    a.selectedRows before after s matcher scope =
      (Baseline.gains
        (Ledger.countAll (a.run before).tap.ledger.sockets
          (((a.run before).streamCalls after).map StreamCall.increment))
        (a.run before).tap.ledger.sockets).rows.filter fun row =>
          matcher.accepts row.1.address && scope.selects row.1.owner s.creator := by
  have honce := (a.run before).eachOnce_streamCalls after
  have hobserve := a.observe_sockets before after hmonitor hbegins hclear
  have hrows := Baseline.filter_counted hfits honce fun k =>
    matcher.accepts k.address && scope.selects k.owner s.creator
  rw [← hrows, ← hobserve]
  simp only [← Bool.and_assoc]
  rfl

/-- An identity of a connection is selected if and only if a call that is asked for was made on the
connection. -/
theorem any_selectedRows (key : Address × UInt32) :
    ((a.selectedRows before after s matcher scope).any fun row => row.1.connection == key) =
      ((a.run before).streamCalls after).any fun c =>
        c.selected matcher scope s.creator && c.id.connection == key := by
  have honce := (a.run before).eachOnce_streamCalls after
  rw [a.selectedRows_eq before after hmonitor hbegins hclear hfits, List.any_filter]
  have hany := Baseline.any_gains hfits honce (p := fun k =>
    matcher.accepts k.address && scope.selects k.owner s.creator && k.connection == key)
    fun k k' hk => by
      rw [ConnectionId.selected_congr matcher scope s.creator k k' hk,
        ConnectionId.connection_congr hk]
  rw [hany, List.any_map]
  refine List.any_congr rfl fun c => ?_
  rw [Function.comp_apply, StreamCall.selected_increment]
  exact congrArg (c.selected matcher scope s.creator && · == key)
    (StreamCall.identityOn_connection c.id c.thread)

/-- What the selected identities of a connection counted is what the calls on it counted. -/
theorem sumOf_selectedRows (key : Address × UInt32) (x : Stats.Field) :
    Observation.sumOf (a.selectedRows before after s matcher scope) key x =
      ((((a.run before).streamCalls after).filter fun c =>
        c.selected matcher scope s.creator && c.id.connection == key).map fun c =>
          c.gain x).sum := by
  have honce := (a.run before).eachOnce_streamCalls after
  rw [Observation.sumOf, a.selectedRows_eq before after hmonitor hbegins hclear hfits,
    List.filter_filter]
  have hsum := Baseline.sum_gains hfits honce (p := fun k =>
    k.connection == key && (matcher.accepts k.address && scope.selects k.owner s.creator))
    (fun k k' hk => by
      rw [ConnectionId.selected_congr matcher scope s.creator k k' hk,
        ConnectionId.connection_congr hk]) x
  rw [hsum, List.filter_map, List.map_map]
  refine congrArg List.sum (congrArg (List.map _) (List.filter_congr fun c _ => ?_))
  rw [Function.comp_apply, StreamCall.selected_increment, Bool.and_comm]
  exact congrArg (c.selected matcher scope s.creator && · == key)
    (StreamCall.identityOn_connection c.id c.thread)

end Window

/-- The streams to addresses that are asked for, on which a thread that is asked for made a call.
Each comes with its place. -/
def touchedStreams (a : Application σ) (actions : List (Action σ)) (matcher : AddressMatcher)
    (scope : Scope) (creator : Thread) : List (ConnectionId × Nat) :=
  (a.run actions).ids.zipIdx.filter fun stream =>
    matcher.accepts stream.1.address &&
      (a.streamCalls actions).any fun c =>
        c.stream == some stream.2 && scope.selects c.thread creator

/-- How many bytes the threads in question moved on a stream in a direction. -/
def bytesOn (a : Application σ) (actions : List (Action σ)) (scope : Scope) (creator : Thread)
    (stream : Nat) (direction : Direction) : Nat :=
  (a.flowOn actions scope creator stream).countP fun byte => byte.1 == direction

/-- A stream with its bytes, in the words of a report. -/
def streamText (a : Application σ) (actions : List (Action σ)) (scope : Scope) (creator : Thread)
    (stream : ConnectionId × Nat) : String :=
  let sent := capped (a.bytesOn actions scope creator stream.2 .sent)
  let received := capped (a.bytesOn actions scope creator stream.2 .received)
  s!"{stream.1.text} sent {sent} bytes and received {received} bytes"

/-- Every call is on the stream at its place, where no connect fails. -/
theorem place_of_streamCall {a : Application σ} {actions : List (Action σ)}
    (hsucceed : ∀ c ∈ a.connects actions, c.stream ≠ none) {c : StreamCall}
    (hc : c ∈ a.streamCalls actions) :
    ∃ i, c.stream = some i ∧ (a.run actions).ids[i]? = some c.id := by
  obtain ⟨h, hh, hcall⟩ := List.mem_filterMap.1 hc
  have hrefers := a.refersTo_run hh
  cases h with
  | connect d =>
    cases hcall
    have hd : d ∈ a.connects actions := List.mem_filterMap.2 ⟨_, hh, rfl⟩
    obtain ⟨i, hi⟩ := Option.ne_none_iff_exists'.1 (hsucceed d hd)
    exact ⟨i, hi, hrefers i hi⟩
  | transfer d =>
    cases hcall
    exact ⟨d.stream, rfl, hrefers⟩
  | _ => cases hcall

/-- The calls on a stream are those under its address and ordinal. -/
theorem calls_on_stream {a : Application σ} {actions : List (Action σ)}
    (hdistinct : (a.run actions).ids.Pairwise fun c d => c.connection ≠ d.connection)
    (hsucceed : ∀ c ∈ a.connects actions, c.stream ≠ none) {id : ConnectionId} {i : Nat}
    (hid : (a.run actions).ids[i]? = some id) {matcher : AddressMatcher}
    (haccepts : matcher.accepts id.address = true) (scope : Scope) (creator : Thread)
    {c : StreamCall} (hc : c ∈ a.streamCalls actions) :
    (c.selected matcher scope creator && c.id.connection == id.connection) =
      (c.stream == some i && scope.selects c.thread creator) := by
  obtain ⟨j, hj, hplace⟩ := place_of_streamCall hsucceed hc
  rw [hj]
  by_cases hij : j = i
  · subst hij
    have hsame : c.id = id := by
      rw [hid] at hplace
      exact (Option.some.inj hplace).symm
    rw [StreamCall.selected, hsame, haccepts, Bool.true_and, beq_self_eq_true, Bool.and_true,
      beq_self_eq_true, Bool.true_and]
  · have hother : (c.id.connection == id.connection) = false := by
      rw [beq_eq_false_iff_ne]
      intro hsame
      exact hij (place_unique hdistinct hplace hid hsame)
    have hne : (some j == some i) = false := by
      rw [beq_eq_false_iff_ne]
      intro h
      exact hij (Option.some.inj h)
    rw [hother, hne, Bool.and_false, Bool.false_and]

/-- The bytes that calls counted in a direction are the bytes that moved in it. -/
theorem sum_bytes (a : Application σ) (actions : List (Action σ)) (scope : Scope)
    (creator : Thread) (stream : Nat) (direction : Direction) :
    (((a.streamCalls actions).filter fun c =>
        c.stream == some stream && scope.selects c.thread creator).map fun c =>
          c.gain direction.field).sum = a.bytesOn actions scope creator stream direction := by
  unfold bytesOn flowOn streamCalls transfers
  induction a.happenings actions with
  | nil => rfl
  | cons h rest ih =>
    cases h with
    | connect c =>
      have hnone : c.gain direction.field = 0 := by cases direction <;> rfl
      simp only [List.filterMap_cons, Happening.streamCall?, Happening.transfer?, List.filter_cons]
      split
      · rw [List.map_cons, List.sum_cons, ih]
        show c.gain direction.field + _ = _
        rw [hnone, Nat.zero_add]
      · exact ih
    | transfer c =>
      simp only [List.filterMap_cons, Happening.streamCall?, Happening.transfer?, List.filter_cons]
      have hsame : (some c.stream == some stream) = (c.stream == stream) := rfl
      rw [hsame]
      split
      · rw [List.map_cons, List.sum_cons, List.flatMap_cons, List.countP_append, ih,
          ← c.gain_field]
      · exact ih
    | _ => exact ih

section Exact

variable (a : Application σ) (before after : List (Action σ)) {s : Spy}
  (hmonitor : a.tap.settings.monitorSockets = true)
  (hbegins : s.BeginsAt (a.run before).tap.ledger) (hclear : Action.clear ∉ after)
  (hfits : Ledger.Fits (a.run before).tap.ledger.sockets
    (((a.run before).streamCalls after).map StreamCall.increment))
  (hdistinct : ((a.run before).run after).ids.Pairwise fun c d => c.connection ≠ d.connection)
  (hsucceed : ∀ c ∈ (a.run before).connects after, c.stream ≠ none)
  (matcher : AddressMatcher) (scope : Scope)

include hmonitor hbegins hclear hfits hdistinct hsucceed

/-- The connections of a report are the streams that were touched, each once. -/
theorem keys_perm_touchedStreams :
    (Observation.connections (a.selectedRows before after s matcher scope)).keys.Perm
      (((a.run before).touchedStreams after matcher scope s.creator).map fun stream =>
        stream.1.connection) := by
  have htouched : (((a.run before).touchedStreams after matcher scope s.creator).map fun stream =>
      stream.1.connection).Nodup := by
    refine List.pairwise_map.2 ?_
    exact List.Pairwise.filter _ (zipIdx_distinct hdistinct)
  refine (List.perm_ext_iff_of_nodup (Table.nodup_keys _) htouched).2 fun key => ?_
  rw [Table.mem_keys_iff, (Observation.connections_spec _).contains,
    a.any_selectedRows before after hmonitor hbegins hclear hfits, List.any_eq_true, List.mem_map]
  constructor
  · rintro ⟨c, hc, hcall⟩
    obtain ⟨i, hi, hplace⟩ := place_of_streamCall hsucceed hc
    obtain ⟨hselected, hkey⟩ := Bool.and_eq_true_iff.1 hcall
    obtain ⟨haccepts, hselects⟩ := Bool.and_eq_true_iff.1 hselected
    refine ⟨(c.id, i), List.mem_filter.2 ⟨List.mem_zipIdx_iff_getElem?.2 hplace, ?_⟩,
      eq_of_beq hkey⟩
    refine Bool.and_eq_true_iff.2 ⟨haccepts, List.any_eq_true.2 ⟨c, hc, ?_⟩⟩
    rw [hi, hselects, beq_self_eq_true]
    rfl
  · rintro ⟨⟨id, i⟩, hstream, rfl⟩
    obtain ⟨hplace, htouch⟩ := List.mem_filter.1 hstream
    obtain ⟨haccepts, hany⟩ := Bool.and_eq_true_iff.1 htouch
    obtain ⟨c, hc, hcall⟩ := List.any_eq_true.1 hany
    refine ⟨c, hc, ?_⟩
    rw [calls_on_stream hdistinct hsucceed (List.mem_zipIdx_iff_getElem?.1 hplace) haccepts
      scope s.creator hc]
    exact hcall

/-- What a report names for a connection is what moved on its stream. -/
theorem sumOf_touchedStream {id : ConnectionId} {i : Nat}
    (hplace : ((a.run before).run after).ids[i]? = some id)
    (haccepts : matcher.accepts id.address = true) (direction : Direction) :
    Observation.sumOf (a.selectedRows before after s matcher scope) id.connection
        direction.field =
      (a.run before).bytesOn after scope s.creator i direction := by
  rw [a.sumOf_selectedRows before after hmonitor hbegins hclear hfits, ← sum_bytes]
  refine congrArg List.sum (congrArg (List.map _) (List.filter_congr fun c hc => ?_))
  exact calls_on_stream hdistinct hsucceed hplace haccepts scope s.creator hc

/-- The events of a report are the texts of the streams that were touched. -/
theorem events_perm_touchedStreams :
    ((Observation.connections (a.selectedRows before after s matcher scope)).rows.map fun row =>
      (Observation.connectionEvent row.2.1 row.2.2).description).Perm
        (((a.run before).touchedStreams after matcher scope s.creator).map
          ((a.run before).streamText after scope s.creator)) := by
  have hspec := Observation.connections_spec (a.selectedRows before after s matcher scope)
  -- both sides are read off the connection alone, so they meet over the connections
  let textOf : Address × UInt32 → String := fun key =>
    let sent := capped
      (Observation.sumOf (a.selectedRows before after s matcher scope) key .sent)
    let received := capped
      (Observation.sumOf (a.selectedRows before after s matcher scope) key .received)
    s!"Connection #{key.2} to {key.1.text} sent {sent} bytes and received {received} bytes"
  have hrows : ((Observation.connections (a.selectedRows before after s matcher scope)).rows.map
      fun row => (Observation.connectionEvent row.2.1 row.2.2).description) =
        (Observation.connections (a.selectedRows before after s matcher scope)).keys.map
          textOf := by
    rw [Table.keys, List.map_map]
    refine List.map_congr_left fun row hrow => ?_
    obtain ⟨key, total, id⟩ := row
    have hget := Table.get?_of_mem_rows hrow
    have hkey := hspec.standing _ _ _ hget
    have hsent : total.sent = capped (Observation.sumOf _ key .sent) :=
      hspec.total _ _ _ hget .sent
    have hreceived : total.received = capped (Observation.sumOf _ key .received) :=
      hspec.total _ _ _ hget .received
    subst hkey
    simp only [Observation.connectionEvent, Function.comp_apply, hsent, hreceived]
    rfl
  have htexts : (((a.run before).touchedStreams after matcher scope s.creator).map fun stream =>
      stream.1.connection).map textOf =
        ((a.run before).touchedStreams after matcher scope s.creator).map
          ((a.run before).streamText after scope s.creator) := by
    rw [List.map_map]
    refine List.map_congr_left fun stream hstream => ?_
    obtain ⟨hplace, htouch⟩ := List.mem_filter.1 hstream
    obtain ⟨haccepts, -⟩ := Bool.and_eq_true_iff.1 htouch
    have hsum := a.sumOf_touchedStream before after hmonitor hbegins hclear hfits hdistinct
      hsucceed matcher scope (List.mem_zipIdx_iff_getElem?.1 hplace) haccepts
    have hsent := hsum .sent
    have hreceived := hsum .received
    simp only [Direction.field] at hsent hreceived
    simp only [Function.comp_apply, textOf, streamText, hsent, hreceived]
    rfl
  rw [hrows, ← htexts]
  exact (a.keys_perm_touchedStreams before after hmonitor hbegins hclear hfits hdistinct hsucceed
    matcher scope).map textOf

end Exact

/-- **A window counts the streams that were used in it.**  Let an application begin with no stream
at a ledger that knows no connection.  Let a spy be opened or reset after some actions, and others
follow; let the ledger never be cleared, every connect that is let through succeed, fewer than
`2 ^ 32` of them go to each address, and no counter wrap.  Then a connection expectation observes
as many connections as there are streams to addresses that it asks for, on which a thread that it
asks for made a call since.  Each has its event, with the bytes that these threads moved on it. -/
theorem connection_window_exact {a : Application σ} (hfresh : a.Fresh)
    (before after : List (Action σ)) (s : Spy) (e : Expectation) (matcher : AddressMatcher)
    (hmonitor : a.tap.settings.monitorSockets = true)
    (hbegins : s.BeginsAt (a.run before).tap.ledger) (hopen : s.closed = false)
    (hclear : Action.clear ∉ before ++ after) (htarget : e.target = .connections matcher)
    (hsucceed : ∀ c ∈ a.connects (before ++ after), c.stream ≠ none)
    (hfew : ∀ address, ConnectCall.countTo address (a.connects (before ++ after)) < 2 ^ 32)
    (hfits : Ledger.Fits (a.run before).tap.ledger.sockets
      (((a.run before).streamCalls after).map StreamCall.increment))
    (hcount : ((a.run before).touchedStreams after matcher e.threads s.creator).length < 2 ^ 64) :
    ∃ f : Finding, s.Yields (a.run (before ++ after)).tap.ledger e f ∧
      f.observed.toNat =
        ((a.run before).touchedStreams after matcher e.threads s.creator).length ∧
      (f.events.map Event.description).Perm
        (((a.run before).touchedStreams after matcher e.threads s.creator).map
          ((a.run before).streamText after e.threads s.creator)) := by
  have hdistinct := distinct_ids hfresh hclear hfew
  rw [run_append] at hdistinct
  have hlater : Action.clear ∉ after := fun h => hclear (List.mem_append_right _ h)
  have hsucceed' : ∀ c ∈ (a.run before).connects after, c.stream ≠ none := by
    intro c hc
    refine hsucceed c ?_
    rw [connects, happenings_append, List.filterMap_append]
    exact List.mem_append_right _ hc
  have hkeys := a.keys_perm_touchedStreams before after hmonitor hbegins hlater hfits hdistinct
    hsucceed' matcher e.threads
  have hevents := a.events_perm_touchedStreams before after hmonitor hbegins hlater hfits hdistinct
    hsucceed' matcher e.threads
  obtain ⟨hobserved, hreport⟩ :=
    Finding.evaluate_connections htarget (s.observe (a.run (before ++ after)).tap.ledger)
  refine ⟨s.finding (a.run (before ++ after)).tap.ledger e, Spy.yields_finding hopen _ e, ?_,
    hreport.trans hevents⟩
  have hlength := hkeys.length_eq
  rw [List.length_map] at hlength
  rw [Spy.finding, hobserved]
  show (UInt64.ofNat (Table.keys (Observation.connections
    (a.selectedRows before after s matcher e.threads))).length).toNat = _
  rw [hlength]
  exact UInt64.toNat_ofNat_of_lt' hcount

/-- A stream is opened before a window. -/
def openOne : List (Action Unit) :=
  [.connect (α := Unit) (ε := String) ⟨⟨1, none⟩, "shop:1"⟩ ⟨"db", 5432⟩ fun s => (.ok (), s)]

/-- In the window it is used by two threads, and a second stream to its address is opened, from
which a read fails. -/
def useBoth : List (Action Unit) :=
  [.send (ε := String) ⟨⟨1, none⟩, "shop:2"⟩ 0 [1, 2, 3] fun s => (.ok 2, s),
    .receive (ε := String) ⟨⟨2, none⟩, "shop:3"⟩ 0 fun s => (.ok [7], s),
    .connect (α := Unit) (ε := String) ⟨⟨2, none⟩, "shop:4"⟩ ⟨"db", 5432⟩ fun s => (.ok (), s),
    .receive (ε := String) ⟨⟨2, none⟩, "shop:5"⟩ 1 fun s => (.error "reset", s)]

/-- These are two connections, and the first has the bytes of both threads. -/
theorem connection_window_exact_useBoth :
    ∃ f : Finding,
      (Spy.begin ⟨1, none⟩ (ticking.run openOne).tap.ledger).Yields
        (ticking.run (openOne ++ useBoth)).tap.ledger
        { target := .connections {}, count := .exact 2, rows := none, threads := .any } f ∧
      f.observed.toNat = 2 ∧
      (f.events.map Event.description).Perm
        ["Connection #0 to db:5432 sent 2 bytes and received 1 bytes",
          "Connection #1 to db:5432 sent 0 bytes and received 0 bytes"] := by
  have hfits : Ledger.Fits (ticking.run openOne).tap.ledger.sockets
      (((ticking.run openOne).streamCalls useBoth).map StreamCall.increment) := by
    rw [ticking.run_sockets rfl (by simp [openOne])]
    refine Ledger.fits_of_sum_lt fun x => ?_
    cases x <;> decide +kernel
  have hlength : ((ticking.run openOne).touchedStreams useBoth {} .any ⟨1, none⟩).length = 2 := by
    decide +kernel
  have htexts : ((ticking.run openOne).touchedStreams useBoth {} .any ⟨1, none⟩).map
      ((ticking.run openOne).streamText useBoth .any ⟨1, none⟩) =
        ["Connection #0 to db:5432 sent 2 bytes and received 1 bytes",
          "Connection #1 to db:5432 sent 0 bytes and received 0 bytes"] := by
    decide +kernel
  have hexact := connection_window_exact (a := ticking) ⟨rfl, rfl, rfl, rfl⟩ openOne useBoth
    (Spy.begin ⟨1, none⟩ (ticking.run openOne).tap.ledger)
    { target := .connections {}, count := .exact 2, rows := none, threads := .any } {}
    rfl (.begin ⟨1, none⟩) rfl (by simp [openOne, useBoth]) rfl (by decide)
    (fun address => Nat.lt_of_le_of_lt List.countP_le_length (by decide)) hfits
    (lt_of_eq_of_lt hlength (by decide))
  rw [← htexts, ← hlength]
  exact hexact

end Application

end Wiretap
