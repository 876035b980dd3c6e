import Wiretap.Proofs.Window.Traffic
/-!
# The packets of a dropped stream are final

Closing the traffic of a stream closes its open packet and keeps all of its packets.  A stream that
is dropped closes its traffic, too, and from then on its packets stay the same, whatever else is
done, and whichever connections are opened to its address.

This rests on two facts.  What is done touches the packets of streams in use only, under their own
identities (`traffic_perform_of_not_live`); and no stream that is in use later has the address and
the ordinal of the dropped one (`Application.distinct_ids`).
-/

namespace Wiretap

namespace Ledger

/-- The packets that are kept under an identity. -/
def packetsOf (l : Ledger) (k : ConnectionId) : List Packet := (l.packets.get? k).getD []

/-- No packet under an identity is open. -/
def IsQuiet (l : Ledger) (k : ConnectionId) : Prop :=
  ∀ r, l.traffic.get? k = some r → r.current = none

variable {l l' : Ledger} {k : ConnectionId}

/-- The packets of a connection are those of its reconstruction, if it has one. -/
theorem packetsOf_eq (l : Ledger) (k : ConnectionId) :
    l.packetsOf k = ((l.traffic.get? k).map Reconstruction.packets).getD [] := by
  have hget : l.packets.get? k = (l.traffic.get? k).map Reconstruction.packets :=
    Table.get?_mapValues (fun _ _ _ _ => rfl) l.traffic k
  rw [packetsOf, hget]

/-- Ledgers with the same reconstruction of a connection have the same packets of it. -/
theorem packetsOf_congr (h : l.traffic.get? k = l'.traffic.get? k) :
    l.packetsOf k = l'.packetsOf k := by
  rw [packetsOf_eq, packetsOf_eq, h]

/-- Whether a connection is quiet is a matter of its reconstruction. -/
theorem IsQuiet.congr (h : l.IsQuiet k) (hsame : l'.traffic.get? k = l.traffic.get? k) :
    l'.IsQuiet k := by
  intro r hr
  rw [hsame] at hr
  exact h r hr

/-- **Closing a packet** leaves none open under the identity and keeps them all. -/
theorem quiet_flush {id : ConnectionId} (hk : (id == k) = true) :
    (l.flush id).IsQuiet k ∧ (l.flush id).packetsOf k = l.packetsOf k := by
  have hget := l.get?_flush id k
  rw [if_pos hk] at hget
  constructor
  · intro r hr
    rw [hget] at hr
    obtain ⟨r', -, rfl⟩ := Option.map_eq_some_iff.1 hr
    rfl
  · rw [packetsOf_eq, packetsOf_eq, hget]
    cases l.traffic.get? k with
    | none => rfl
    | some r => exact r.packets_flush

/-- Where nothing is kept, nothing is open. -/
theorem quiet_of_not_contains (h : l.traffic.contains k = false) :
    l.IsQuiet k ∧ l.packetsOf k = [] := by
  have hnone := Table.get?_eq_none h
  constructor
  · intro r hr
    rw [hnone] at hr
    cases hr
  · rw [packetsOf_eq, hnone]
    rfl

end Ledger

namespace Application

variable {σ : Type}

/-- **What is done touches the packets of streams in use only.** -/
theorem traffic_perform_of_not_live (a : Application σ) {act : Action σ} (hact : act ≠ .clear)
    {k : ConnectionId} (hk : ∀ i id, a.live? i = some id → (id == k) = false) :
    (a.perform act).tap.ledger.traffic.get? k = a.tap.ledger.traffic.get? k := by
  have hledger := (a.perform_notes act).content
  rw [← Ledger.content_traffic, hledger, ← Ledger.content_traffic a.tap.ledger]
  cases hh : a.happening? act with
  | none => rfl
  | some h =>
    show (a.tap.ledger.content.note a.tap.settings h).traffic.get? k = _
    cases sees_happening hh with
    | statement c =>
      simp only [Ledger.note]
      split <;> rfl
    | connect hact =>
      simp only [Ledger.note]
      split <;> rfl
    | @transfer c hlive =>
      simp only [Ledger.note]
      split
      · split
        · rename_i hcaptured
          have hbytes : c.bytes.isEmpty = false := by
            rw [Bool.and_eq_true, Bool.not_eq_true'] at hcaptured
            exact hcaptured.2
          rw [Ledger.get?_append _ _ _ hbytes, if_neg (Bool.eq_false_iff.1 (hk _ _ hlive))]
          rfl
        · rfl
      · rfl
    | closing hlive =>
      rw [Ledger.note, Ledger.get?_flush, if_neg (Bool.eq_false_iff.1 (hk _ _ hlive))]
    | cleared hclear => exact absurd hclear hact

/-- Packets are kept under identities of streams only. -/
def Tracked (a : Application σ) : Prop :=
  ∀ k, a.tap.ledger.traffic.contains k = true → ∃ id ∈ a.ids, (id == k) = true

/-- Streams that were opened stay opened, in the order in which they were. -/
theorem ids_prefix_perform (a : Application σ) (act : Action σ) :
    a.ids <+: (a.perform act).ids := by
  rw [perform_ids]
  exact List.prefix_append _ _

/-- A step tracks no connection that was not opened. -/
theorem Tracked.perform {a : Application σ} (h : a.Tracked) {act : Action σ} (hact : act ≠ .clear) :
    (a.perform act).Tracked := by
  intro k hk
  have hgrows := (a.ids_prefix_perform act).subset
  by_cases hlive : ∃ i id, a.live? i = some id ∧ (id == k) = true
  · obtain ⟨i, id, hi, hid⟩ := hlive
    exact ⟨id, hgrows (List.mem_of_getElem? (ids_of_live? hi)), hid⟩
  · have hother : ∀ i id, a.live? i = some id → (id == k) = false := by
      intro i id hi
      rw [Bool.eq_false_iff]
      exact fun hid => hlive ⟨i, id, hi, hid⟩
    rw [Table.contains_eq_isSome, a.traffic_perform_of_not_live hact hother,
      ← Table.contains_eq_isSome] at hk
    obtain ⟨id, hmem, hid⟩ := h k hk
    exact ⟨id, hgrows hmem, hid⟩

/-- A run that does not clear the ledger tracks no connection that was not opened. -/
theorem Tracked.run {a : Application σ} (h : a.Tracked) {actions : List (Action σ)}
    (hclear : Action.clear ∉ actions) : (a.run actions).Tracked := by
  induction actions generalizing a with
  | nil => exact h
  | cons act rest ih =>
    obtain ⟨hact, hrest⟩ := List.ne_and_not_mem_of_not_mem_cons hclear
    exact ih (h.perform hact.symm) hrest

/-- Where nothing is recorded, nothing is tracked. -/
theorem Fresh.tracked {a : Application σ} (h : a.Fresh) : a.Tracked := by
  intro k hk
  rw [h.traffic] at hk
  cases hk

/-- **Closing the traffic of a stream,** under whichever identity its connection is asked for. -/
theorem quiet_closeTraffic {a : Application σ} (htracked : a.Tracked)
    (hdistinct : a.ids.Pairwise fun c d => c.connection ≠ d.connection) {i : Nat}
    {id : ConnectionId} (hlive : a.live? i = some id) {k : ConnectionId}
    (hk : k.connection = id.connection) :
    (a.closeTraffic i).tap.ledger.IsQuiet k ∧
      (a.closeTraffic i).tap.ledger.packetsOf k = a.tap.ledger.packetsOf k := by
  have hledger : (a.closeTraffic i).tap.ledger = a.tap.ledger.flush id := by
    rw [closeTraffic, hlive]
    rfl
  rw [hledger]
  by_cases hsame : (id == k) = true
  · exact Ledger.quiet_flush hsame
  · -- no stream but this one has the connection, so nothing is kept under the identity
    have hnone : a.tap.ledger.traffic.contains k = false := by
      rw [Bool.eq_false_iff]
      intro hcontains
      obtain ⟨other, hother, hother_k⟩ := htracked k hcontains
      obtain ⟨j, hj⟩ := List.getElem?_of_mem hother
      have hconnection := (ConnectionId.connection_congr hother_k).trans hk
      obtain rfl := place_unique hdistinct hj (ids_of_live? hlive) hconnection
      rw [ids_of_live? hlive, Option.some.injEq] at hj
      rw [hj] at hsame
      exact hsame hother_k
    obtain ⟨hquiet, hpackets⟩ := Ledger.quiet_of_not_contains hnone
    have hkept : (a.tap.ledger.flush id).traffic.get? k = a.tap.ledger.traffic.get? k := by
      rw [Ledger.get?_flush, if_neg hsame]
    exact ⟨hquiet.congr hkept, Ledger.packetsOf_congr hkept⟩

/-- To close a packet does nothing to the streams. -/
theorem streams_closeTraffic (a : Application σ) (i : Nat) :
    (a.closeTraffic i).streams = a.streams := by
  unfold closeTraffic
  split <;> rfl

/-- A stream that was dropped stays dropped. -/
theorem dropped_perform {a : Application σ} {i : Nat} {s : OpenedStream}
    (hs : a.streams[i]? = some s) (hdropped : s.dropped = true) (act : Action σ) :
    (a.perform act).streams[i]? = some s := by
  cases act with
  | connect caller address outside =>
    simp only [perform]
    split
    · show (a.streams ++ [_])[i]? = some s
      rw [List.getElem?_append_left (List.getElem?_eq_some_iff.1 hs).1]
      exact hs
    · exact hs
  | receive caller stream outside =>
    simp only [perform]
    split
    · exact hs
    · exact hs
  | send caller stream bytes outside =>
    simp only [perform]
    split
    · exact hs
    · exact hs
  | closeTraffic stream =>
    show (a.closeTraffic stream).streams[i]? = some s
    rw [streams_closeTraffic]
    exact hs
  | drop stream =>
    show (a.streams.modify stream fun s => { s with dropped := true })[i]? = some s
    rw [List.getElem?_modify, hs]
    -- dropping it again changes nothing
    have hagain : { s with dropped := true } = s := by rw [← hdropped]
    show some (if stream = i then { s with dropped := true } else s) = some s
    rw [hagain, ite_self]
  | _ => exact hs

/-- A stream that was in use and is dropped stands at its place as dropped. -/
theorem dropped_drop {a : Application σ} {i : Nat} {id : ConnectionId}
    (hlive : a.live? i = some id) :
    ∃ s, (a.perform (.drop i)).streams[i]? = some s ∧ s.dropped = true ∧ s.id = id := by
  obtain ⟨s, hs, -⟩ := Option.bind_eq_some_iff.1 hlive
  have hplace := ids_of_live? hlive
  rw [ids, List.getElem?_map, hs] at hplace
  refine ⟨{ s with dropped := true }, ?_, rfl, Option.some.inj hplace⟩
  show (a.streams.modify i fun s => { s with dropped := true })[i]? = _
  rw [List.getElem?_modify, hs]
  exact congrArg some (if_pos rfl)

/-- The identities of streams are told apart at every moment if they are in the end. -/
theorem distinct_of_run {a : Application σ} {actions : List (Action σ)}
    (hdistinct : (a.run actions).ids.Pairwise fun c d => c.connection ≠ d.connection) :
    a.ids.Pairwise fun c d => c.connection ≠ d.connection := by
  rw [run_ids] at hdistinct
  exact (List.pairwise_append.1 hdistinct).1

/-- **Nothing touches the packets of a dropped stream.**  The induction is on the run; no stream in
use has the connection, since it would be the dropped one. -/
theorem traffic_run_of_dropped {a : Application σ} {actions : List (Action σ)}
    (hclear : Action.clear ∉ actions)
    (hdistinct : (a.run actions).ids.Pairwise fun c d => c.connection ≠ d.connection)
    {i : Nat} {s : OpenedStream} (hs : a.streams[i]? = some s) (hdropped : s.dropped = true)
    {k : ConnectionId} (hk : k.connection = s.id.connection) :
    (a.run actions).tap.ledger.traffic.get? k = a.tap.ledger.traffic.get? k := by
  induction actions generalizing a with
  | nil => rfl
  | cons act rest ih =>
    obtain ⟨hact, hrest⟩ := List.ne_and_not_mem_of_not_mem_cons hclear
    have hplace : a.ids[i]? = some s.id := by
      rw [ids, List.getElem?_map, hs]
      rfl
    have hother : ∀ j id, a.live? j = some id → (id == k) = false := by
      intro j id hlive
      rw [Bool.eq_false_iff]
      intro hid
      have hconnection := (ConnectionId.connection_congr hid).trans hk
      obtain rfl := place_unique (distinct_of_run hdistinct) (ids_of_live? hlive) hplace
        hconnection
      rw [live?, hs, Option.bind_some, hdropped] at hlive
      cases hlive
    have hstep := a.traffic_perform_of_not_live hact.symm hother
    rw [run_cons] at hdistinct ⊢
    exact (ih hrest hdistinct (dropped_perform hs hdropped act)).trans hstep

/-- **The packets of a dropped stream are final.**  Let an application begin with no stream at a
ledger that knows no connection, let it do anything but clear the ledger, and let fewer than
`2 ^ 32` connects go to each address.  Let a stream be in use after some actions, and take any
identity of its connection.

* If its traffic is closed then, no packet is open, and all of them are kept.
* If it is dropped then, no packet is open, and all of them are kept; and after whatever follows no
  packet is open, and the packets are those at the drop. -/
theorem dropped_traffic_is_final {a : Application σ} (hfresh : a.Fresh)
    (before after : List (Action σ)) {i : Nat} {id : ConnectionId}
    (hlive : (a.run before).live? i = some id) (hclear : Action.clear ∉ before ++ after)
    (hfew : ∀ address,
      ConnectCall.countTo address (a.connects (before ++ .drop i :: after)) < 2 ^ 32)
    {k : ConnectionId} (hk : k.connection = id.connection) :
    let here := (a.run before).tap.ledger
    let closed := (a.run (before ++ [.closeTraffic i])).tap.ledger
    let dropped := (a.run (before ++ [.drop i])).tap.ledger
    let later := (a.run (before ++ .drop i :: after)).tap.ledger
    (closed.IsQuiet k ∧ closed.packetsOf k = here.packetsOf k) ∧
      (dropped.IsQuiet k ∧ dropped.packetsOf k = here.packetsOf k) ∧
      (later.IsQuiet k ∧ later.packetsOf k = dropped.packetsOf k) := by
  intro here closed dropped later
  have hearlier : Action.clear ∉ before := fun h => hclear (List.mem_append_left _ h)
  have hlater : Action.clear ∉ after := fun h => hclear (List.mem_append_right _ h)
  have hrun : Action.clear ∉ before ++ .drop i :: after := by
    simp only [List.mem_append, List.mem_cons, reduceCtorEq, false_or]
    exact fun h => h.elim hearlier hlater
  have hdistinct := distinct_ids hfresh hrun hfew
  rw [run_append] at hdistinct
  have hquiet := quiet_closeTraffic (hfresh.tracked.run hearlier) (distinct_of_run hdistinct)
    hlive hk
  -- dropping a stream does to the ledger what closing its traffic does
  have hclosed : closed = ((a.run before).closeTraffic i).tap.ledger := by
    show (a.run (before ++ [.closeTraffic i])).tap.ledger = _
    rw [run_append]
    rfl
  have hdropped : dropped = ((a.run before).closeTraffic i).tap.ledger := by
    show (a.run (before ++ [.drop i])).tap.ledger = _
    rw [run_append]
    rfl
  have hsame : later.traffic.get? k = dropped.traffic.get? k := by
    obtain ⟨s, hs, hs_dropped, rfl⟩ := dropped_drop hlive
    have hfinal := traffic_run_of_dropped hlater hdistinct hs hs_dropped hk
    show (a.run (before ++ .drop i :: after)).tap.ledger.traffic.get? k = _
    rw [run_append, run_cons, hfinal, hdropped]
    rfl
  refine ⟨?_, ?_, ?_, Ledger.packetsOf_congr hsame⟩
  · rw [hclosed]
    exact hquiet
  · rw [hdropped]
    exact hquiet
  · rw [hdropped] at hsame
    exact hquiet.1.congr hsame

/-- A second stream is opened to the address of the first, and bytes go over it; another byte is
meant for the first one. -/
def openAnother : List (Action Unit) :=
  [.connect (α := Unit) (ε := String) ⟨⟨2, none⟩, "shop:3"⟩ ⟨"db", 5432⟩ fun s => (.ok (), s),
    .send (ε := String) ⟨⟨2, none⟩, "shop:4"⟩ 1 [3] fun s => (.ok 1, s),
    .send (ε := String) ⟨⟨2, none⟩, "shop:5"⟩ 0 [4] fun s => (.ok 1, s)]

/-- The stream has an open packet until it is dropped, and this one packet afterwards. -/
theorem dropped_traffic_is_final_openAnother :
    let id : ConnectionId := ⟨⟨"db", 5432⟩, 0, ⟨1, none⟩, some "shop:1"⟩
    let later := (ticking.run (openPacket ++ .drop 0 :: openAnother)).tap.ledger
    ¬ (ticking.run openPacket).tap.ledger.IsQuiet id ∧ later.IsQuiet id ∧
      (later.packetsOf id).map Packet.payload = [[1, 2]] := by
  intro id later
  have hfew : ∀ address, ConnectCall.countTo address
      (ticking.connects (openPacket ++ .drop 0 :: openAnother)) < 2 ^ 32 :=
    fun address => Nat.lt_of_le_of_lt List.countP_le_length (by decide)
  have hlive : (ticking.run openPacket).live? 0 = some id := by rfl
  obtain ⟨-, ⟨-, hdropped⟩, hquiet, hfinal⟩ :=
    dropped_traffic_is_final ⟨rfl, rfl, rfl, rfl⟩ openPacket openAnother hlive
      (by simp [openPacket, openAnother]) hfew (k := id) rfl
  refine ⟨?_, hquiet, ?_⟩
  · intro hopen
    have hnone : ((ticking.run openPacket).tap.ledger.traffic.get? id).all
        (fun r => r.current.isNone) = true := by
      rw [Option.all_eq_true]
      intro r hr
      rw [hopen r hr]
      rfl
    revert hnone
    decide +kernel
  · have hkept : later.packetsOf id = (ticking.run openPacket).tap.ledger.packetsOf id :=
      hfinal.trans hdropped
    rw [hkept]
    decide +kernel

end Application

end Wiretap
