import Wiretap.Proofs.Window
/-!
# Streams of a run are told apart

An application names a stream by its place, and the ledger knows it by the identity of its
connection.  A run only adds streams behind those that are there (`run_ids`), and what happens to a
stream happens under the identity that stands at its place (`refersTo_run`).

The identities of two streams never agree in address and ordinal (`distinct_ids`), as long as fewer
than `2 ^ 32` connects are let through to each address and the ledger is not cleared.  The invariant
is that the next ordinal of an address lies above all that were dealt out for it.
-/

namespace Wiretap

/-- Equal identities are of one connection. -/
theorem ConnectionId.connection_congr {k k' : ConnectionId} (h : (k == k') = true) :
    k.connection = k'.connection := by
  have hkey := ConnectionId.beq_iff.1 h
  simp only [ConnectionId.key, Prod.mk.injEq] at hkey
  obtain ⟨haddress, hordinal, -⟩ := hkey
  rw [connection, connection, haddress, hordinal]

namespace Happening

/-- The connect that happened, if it was one. -/
def connect? : Happening → Option ConnectCall
  | .connect c => some c
  | _ => none

/-- The identity of the stream that was opened, if one was. -/
def opened? : Happening → Option ConnectionId
  | .connect c => c.stream.map fun _ => c.id
  | _ => none

/-- The transfer that happened, if it was one. -/
def transfer? : Happening → Option TransferCall
  | .transfer c => some c
  | _ => none

/-- Whether the identities that a happening names stand at the places that it names. -/
def RefersTo (ids : List ConnectionId) : Happening → Prop
  | .connect c => ∀ i, c.stream = some i → ids[i]? = some c.id
  | .transfer c => ids[c.stream]? = some c.id
  | .closing stream id => ids[stream]? = some id
  | _ => True

/-- What refers to streams that are opened refers to them when more are. -/
theorem RefersTo.mono {ids ids' : List ConnectionId} {h : Happening} (hh : h.RefersTo ids)
    (hids : ids <+: ids') : h.RefersTo ids' := by
  have hplace : ∀ (i : Nat) (id : ConnectionId), ids[i]? = some id → ids'[i]? = some id := by
    intro i id hi
    obtain ⟨more, rfl⟩ := hids
    rw [List.getElem?_append_left (List.getElem?_eq_some_iff.1 hi).1]
    exact hi
  cases h with
  | connect c => exact fun i hi => hplace i c.id (hh i hi)
  | transfer c => exact hplace c.stream c.id hh
  | closing stream id => exact hplace stream id hh
  | statement c => trivial
  | cleared => trivial

end Happening

namespace Application

variable {σ : Type}

/-- The identities of the streams, each at its place. -/
def ids (a : Application σ) : List ConnectionId := a.streams.map OpenedStream.id

/-- An application that has opened no stream, at a ledger that knows no connection. -/
structure Fresh (a : Application σ) : Prop where
  streams : a.streams = []
  ordinals : a.tap.ledger.ordinals = .empty
  sockets : a.tap.ledger.sockets = .empty
  traffic : a.tap.ledger.traffic = .empty

/-- A live stream is one of those that were opened. -/
theorem ids_of_live? {a : Application σ} {stream : Nat} {id : ConnectionId}
    (h : a.live? stream = some id) : a.ids[stream]? = some id := by
  obtain ⟨s, hs, hlive⟩ := Option.bind_eq_some_iff.1 h
  rw [ids, List.getElem?_map, hs]
  cases hdropped : s.dropped with
  | true => simp [hdropped] at hlive
  | false => simpa [hdropped] using hlive

theorem ids_closeTraffic (a : Application σ) (stream : Nat) : (a.closeTraffic stream).ids = a.ids := by
  unfold closeTraffic
  split <;> rfl

/-- A stream that is dropped keeps its identity. -/
theorem ids_modify (streams : List OpenedStream) (stream : Nat) :
    (streams.modify stream fun s => { s with dropped := true }).map OpenedStream.id =
      streams.map OpenedStream.id := by
  induction streams generalizing stream with
  | nil => cases stream <;> rfl
  | cons s rest ih =>
    cases stream with
    | zero => rfl
    | succ stream => simpa using ih stream

/-- A connect that opens a stream puts it behind those that were opened. -/
theorem perform_connect_ids {α ε : Type} (a : Application σ) (caller : Caller)
    (address : Address) (outside : σ → Except ε α × σ) :
    (a.perform (.connect caller address outside)).ids =
      a.ids ++ (a.happening? (.connect caller address outside)).toList.filterMap
        Happening.opened? := by
  by_cases hrefused : a.refuses address = true
  · have hresult := (Tap.connect_of_refused hrefused caller outside a.outside).1
    simp only [perform, hresult, happening?, if_pos hrefused]
    exact (List.append_nil _).symm
  · have hresult := (Tap.connect_of_admitted hrefused caller outside a.outside none).1
    simp only [perform, hresult, happening?, if_neg hrefused]
    cases (outside a.outside).1 with
    | ok opened =>
      show (a.streams ++ [_]).map OpenedStream.id = a.streams.map OpenedStream.id ++ [_]
      rw [List.map_append]
      rfl
    | error e => exact (List.append_nil _).symm

/-- No other step opens a stream. -/
theorem perform_ids_of_not_connect (a : Application σ) {act : Action σ}
    (hact : ¬ act.isConnect = true) : (a.perform act).ids = a.ids := by
  cases act with
  | connect caller address outside => exact absurd rfl hact
  | receive caller stream outside =>
    simp only [perform]
    split <;> rfl
  | send caller stream bytes outside =>
    simp only [perform]
    split <;> rfl
  | closeTraffic stream => exact a.ids_closeTraffic stream
  | drop stream => exact ids_modify a.streams stream
  | _ => rfl

/-- A connect that succeeds puts its stream behind the others, and nothing else adds any. -/
theorem perform_ids (a : Application σ) (act : Action σ) :
    (a.perform act).ids = a.ids ++ (a.happening? act).toList.filterMap Happening.opened? := by
  by_cases hact : act.isConnect = true
  · cases act with
    | connect caller address outside => exact a.perform_connect_ids caller address outside
    | _ => cases hact
  · rw [perform_ids_of_not_connect a hact]
    cases hh : a.happening? act with
    | none => exact (List.append_nil _).symm
    | some h =>
      have hopened : h.opened? = none := by
        cases sees_happening hh with
        | connect hconnect => exact absurd hconnect hact
        | statement | transfer | closing | cleared => rfl
      simp [hopened]

/-- The streams after a run are those before it and those that it opened, in this order. -/
theorem run_ids (a : Application σ) (actions : List (Action σ)) :
    (a.run actions).ids = a.ids ++ (a.happenings actions).filterMap Happening.opened? := by
  induction actions generalizing a with
  | nil => exact (List.append_nil _).symm
  | cons act rest ih =>
    rw [run_cons, ih, perform_ids, happenings_cons, List.filterMap_append, List.append_assoc]

/-- What happens in a step refers to streams that are opened after it. -/
theorem refersTo_perform (a : Application σ) {act : Action σ} {h : Happening}
    (hh : a.happening? act = some h) : h.RefersTo (a.perform act).ids := by
  have hgrows : a.ids <+: (a.perform act).ids := by
    rw [perform_ids]
    exact List.prefix_append _ _
  cases sees_happening hh with
  | statement c => trivial
  | transfer hlive =>
    exact Happening.RefersTo.mono (h := .transfer _) (ids_of_live? hlive) hgrows
  | closing hlive =>
    exact Happening.RefersTo.mono (h := .closing _ _) (ids_of_live? hlive) hgrows
  | cleared => trivial
  | @connect c hact caller hid htiming hstream =>
    intro i hi
    rw [hi] at hstream
    rcases hstream with hnone | hplace
    · cases hnone
    · cases hplace
      have hlength : a.ids.length = a.streams.length := List.length_map _
      rw [perform_ids, hh, Option.toList_some, ← hlength]
      simp [Happening.opened?, hi]

/-- **What happens to a stream happens under the identity at its place.** -/
theorem refersTo_run (a : Application σ) {actions : List (Action σ)} {h : Happening}
    (hh : h ∈ a.happenings actions) : h.RefersTo (a.run actions).ids := by
  induction actions generalizing a with
  | nil => cases hh
  | cons act rest ih =>
    rw [happenings_cons, List.mem_append] at hh
    rw [run_cons]
    rcases hh with hnow | hlater
    · have hgrows : (a.perform act).ids <+: ((a.perform act).run rest).ids := by
        rw [run_ids]
        exact List.prefix_append _ _
      exact (a.refersTo_perform (Option.mem_toList.1 hnow)).mono hgrows
    · exact ih _ hlater

/-- The transfers of a run. -/
def transfers (a : Application σ) (actions : List (Action σ)) : List TransferCall :=
  (a.happenings actions).filterMap Happening.transfer?

/-- The bytes that the threads in question moved on a stream, each with its direction. -/
def flowOn (a : Application σ) (actions : List (Action σ)) (scope : Scope) (creator : Thread)
    (stream : Nat) : List (Direction × UInt8) :=
  ((a.transfers actions).filter fun c =>
    c.stream == stream && scope.selects c.caller.thread creator).flatMap TransferCall.flow

/-- The connects of a run. -/
def connects (a : Application σ) (actions : List (Action σ)) : List ConnectCall :=
  (a.happenings actions).filterMap Happening.connect?

end Application

/-- How many of the connects are to an address. -/
def ConnectCall.countTo (address : Address) (connects : List ConnectCall) : Nat :=
  connects.countP fun c => c.id.address == address

namespace Ledger

/-- The number of the next connection to an address. -/
def dealt (l : Ledger) (address : Address) : Nat := (l.nextOrdinal address).1.toNat

/-- How many ordinals were dealt is a matter of the ordinals. -/
theorem dealt_congr {l l' : Ledger} (h : l.ordinals = l'.ordinals) (address : Address) :
    l.dealt address = l'.dealt address := by
  unfold dealt nextOrdinal
  rw [h]

/-- Dealing out an ordinal of an address deals one more of them. -/
theorem dealt_nextOrdinal_self {l : Ledger} {address : Address}
    (h : l.dealt address + 1 < 2 ^ 32) :
    (l.nextOrdinal address).2.dealt address = l.dealt address + 1 := by
  have hnext : (l.nextOrdinal address).1 ≠ 4294967295 := by
    intro hmax
    rw [dealt, hmax] at h
    exact absurd h (by decide)
  have hget : (l.nextOrdinal address).2.ordinals.get? address =
      some ((l.nextOrdinal address).1 + 1) := by
    have hinsert := Table.get?_insert_self l.ordinals address ((l.nextOrdinal address).1 + 1)
    rw [← hinsert]
    unfold nextOrdinal at hnext ⊢
    simp only [if_neg hnext]
  have hdealt : (l.nextOrdinal address).2.dealt address =
      ((l.nextOrdinal address).1 + 1).toNat := by
    rw [dealt]
    unfold nextOrdinal at hget ⊢
    simp only [hget, Option.getD_some]
  rw [hdealt, UInt32.toNat_add]
  exact Nat.mod_eq_of_lt h

/-- It deals none of another address. -/
theorem dealt_nextOrdinal_other (l : Ledger) {address address' : Address} (h : address ≠ address') :
    (l.nextOrdinal address).2.dealt address' = l.dealt address' := by
  have hne : (address == address') = false := beq_eq_false_iff_ne.2 h
  have hget : (l.nextOrdinal address).2.ordinals.get? address' = l.ordinals.get? address' :=
    Table.get?_insert_other l.ordinals hne _
  unfold dealt nextOrdinal at *
  simp only [hget]

/-- Only a connect takes an ordinal. -/
theorem note_ordinals {s : Settings} (l : Ledger) {h : Happening} (hconnect : h.connect? = none)
    (hcleared : h ≠ .cleared) : (l.note s h).ordinals = l.ordinals := by
  cases h with
  | statement c =>
    simp only [note]
    split <;> rfl
  | connect c => cases hconnect
  | transfer c =>
    simp only [note]
    split
    · split
      · rw [append_frame]
        rfl
      · rfl
    · rfl
  | closing stream id =>
    rw [note, flush_frame]
  | cleared => exact absurd rfl hcleared

/-- A connect that is noted takes the next ordinal of its address. -/
theorem note_connect_ordinals (s : Settings) (l : Ledger) (c : ConnectCall) :
    (l.note s (.connect c)).ordinals = (l.nextOrdinal c.id.address).2.ordinals := by
  simp only [note]
  split <;> rfl

end Ledger

namespace Application

variable {σ : Type}

/-- No ordinal was dealt out yet. -/
theorem Fresh.dealt {a : Application σ} (h : a.Fresh) (address : Address) :
    a.tap.ledger.dealt address = 0 := by
  unfold Ledger.dealt Ledger.nextOrdinal
  rw [h.ordinals]
  rfl

theorem connects_cons (a : Application σ) (act : Action σ) (rest : List (Action σ)) :
    a.connects (act :: rest) =
      ((a.happening? act).bind Happening.connect?).toList ++ (a.perform act).connects rest := by
  rw [connects, happenings_cons, List.filterMap_append, connects]
  cases hh : a.happening? act with
  | none => rfl
  | some h => cases hconnect : h.connect? <;> simp [hconnect]

/-- The connects of a run made in two parts are those of both. -/
theorem connects_append (a : Application σ) (first second : List (Action σ)) :
    a.connects (first ++ second) = a.connects first ++ (a.run first).connects second := by
  rw [connects, happenings_append, List.filterMap_append]
  rfl

/-- A step that connects to nothing deals out no ordinal. -/
theorem perform_ordinals_of_quiet {a : Application σ} {act : Action σ} (hact : act ≠ .clear)
    (hquiet : (a.happening? act).bind Happening.connect? = none) :
    (a.perform act).tap.ledger.ordinals = a.tap.ledger.ordinals := by
  rw [← Ledger.content_ordinals, (a.perform_notes act).content]
  cases hh : a.happening? act with
  | none => rfl
  | some h =>
    rw [hh, Option.bind_some] at hquiet
    refine Ledger.note_ordinals _ hquiet ?_
    rintro rfl
    cases sees_happening hh with
    | cleared hclear => exact hact hclear

/-- A step that connects has the ordinal that comes next, and takes it. -/
theorem perform_ordinals_of_connect {a : Application σ} {act : Action σ} {c : ConnectCall}
    (hconnect : (a.happening? act).bind Happening.connect? = some c) :
    c.id.ordinal.toNat = a.tap.ledger.dealt c.id.address ∧
      (a.perform act).tap.ledger.ordinals =
        (a.tap.ledger.nextOrdinal c.id.address).2.ordinals := by
  obtain ⟨h, hh, hc⟩ := Option.bind_eq_some_iff.1 hconnect
  have hledger := (a.perform_notes act).content
  rw [hh] at hledger
  cases sees_happening hh with
  | connect hact caller hid =>
    cases hc
    refine ⟨?_, ?_⟩
    · rw [hid]
      rfl
    · rw [← Ledger.content_ordinals, hledger]
      exact Ledger.note_connect_ordinals _ _ c
  | statement | transfer | closing | cleared => cases hc

/-- **Ordinals.**  As long as there is room for them, the connects of a run take ordinals from the
next one of their address on, and no two of them agree in address and ordinal.  The induction is
on the run: a connect moves the next ordinal of its address past its own, so that all later ones
lie above it. -/
theorem connects_distinct (a : Application σ) {actions : List (Action σ)}
    (hclear : Action.clear ∉ actions)
    (hroom : ∀ address, a.tap.ledger.dealt address +
      ConnectCall.countTo address (a.connects actions) < 2 ^ 32) :
    (∀ c ∈ a.connects actions, a.tap.ledger.dealt c.id.address ≤ c.id.ordinal.toNat) ∧
      (a.connects actions).Pairwise fun c c' => c.id.connection ≠ c'.id.connection := by
  induction actions generalizing a with
  | nil => exact ⟨fun c hc => (List.not_mem_nil hc).elim, List.Pairwise.nil⟩
  | cons act rest ih =>
    obtain ⟨hact, hrest⟩ := List.ne_and_not_mem_of_not_mem_cons hclear
    rw [connects_cons] at hroom ⊢
    cases hconnect : (a.happening? act).bind Happening.connect? with
    | none =>
      rw [hconnect] at hroom
      have hsame := Ledger.dealt_congr (perform_ordinals_of_quiet hact.symm hconnect)
      have hlater := ih (a.perform act) hrest fun address => by
        rw [hsame]
        exact hroom address
      simp only [hsame] at hlater
      exact hlater
    | some c =>
      rw [hconnect] at hroom
      obtain ⟨hordinal, hordinals⟩ := perform_ordinals_of_connect hconnect
      have hdealt := Ledger.dealt_congr hordinals
      have hown : (a.perform act).tap.ledger.dealt c.id.address =
          a.tap.ledger.dealt c.id.address + 1 := by
        have hroom' := hroom c.id.address
        simp [ConnectCall.countTo] at hroom'
        rw [hdealt]
        exact Ledger.dealt_nextOrdinal_self (by omega)
      -- only the address of the connect has one number less to deal out afterwards
      have hother : ∀ address, c.id.address ≠ address →
          (a.perform act).tap.ledger.dealt address = a.tap.ledger.dealt address := by
        intro address hne
        rw [hdealt]
        exact Ledger.dealt_nextOrdinal_other _ hne
      obtain ⟨habove, hpairwise⟩ := ih (a.perform act) hrest fun address => by
        have hroom' := hroom address
        by_cases haddress : c.id.address = address
        · subst haddress
          simp [ConnectCall.countTo] at hroom' ⊢
          omega
        · have hskip : (c.id.address == address) = false := beq_eq_false_iff_ne.2 haddress
          simp [ConnectCall.countTo, hskip] at hroom' ⊢
          rw [hother address haddress]
          exact hroom'
      refine ⟨?_, ?_⟩
      · intro d hd
        rcases List.mem_cons.1 hd with rfl | hd
        · exact Nat.le_of_eq hordinal.symm
        · have hlow := habove d hd
          by_cases haddress : c.id.address = d.id.address
          · rw [← haddress] at hlow ⊢
            omega
          · rw [hother d.id.address haddress] at hlow
            exact hlow
      · refine List.pairwise_cons.2 ⟨fun d hd hsame => ?_, hpairwise⟩
        have hlow := habove d hd
        simp only [ConnectionId.connection, Prod.mk.injEq] at hsame
        obtain ⟨haddress, hnumber⟩ := hsame
        rw [← haddress, hown, ← hnumber] at hlow
        omega

/-- **Streams are told apart.**  No two streams of a run agree in address and ordinal. -/
theorem distinct_ids {a : Application σ} (hfresh : a.Fresh) {actions : List (Action σ)}
    (hclear : Action.clear ∉ actions)
    (hfew : ∀ address, ConnectCall.countTo address (a.connects actions) < 2 ^ 32) :
    (a.run actions).ids.Pairwise fun c d => c.connection ≠ d.connection := by
  have hpairwise := (a.connects_distinct hclear fun address => by
    rw [hfresh.dealt, Nat.zero_add]
    exact hfew address).2
  have hids : (a.run actions).ids =
      (a.connects actions).filterMap fun c => c.stream.map fun _ => c.id := by
    have hnone : a.ids = [] := by
      rw [ids, hfresh.streams]
      rfl
    rw [run_ids, hnone, List.nil_append, connects, List.filterMap_filterMap]
    refine List.filterMap_congr fun h _ => ?_
    cases h <;> rfl
  rw [hids]
  refine List.Pairwise.filterMap _ (fun c d hne c' hc' d' hd' => ?_) hpairwise
  obtain ⟨_, -, rfl⟩ := Option.map_eq_some_iff.1 hc'
  obtain ⟨_, -, rfl⟩ := Option.map_eq_some_iff.1 hd'
  exact hne

/-- Where streams are told apart, the place of a stream is known from its address and ordinal. -/
theorem place_unique {ids : List ConnectionId}
    (hdistinct : ids.Pairwise fun c d => c.connection ≠ d.connection) {i j : Nat}
    {c d : ConnectionId} (hc : ids[i]? = some c) (hd : ids[j]? = some d)
    (hsame : c.connection = d.connection) : i = j := by
  obtain ⟨hi, rfl⟩ := List.getElem?_eq_some_iff.1 hc
  obtain ⟨hj, rfl⟩ := List.getElem?_eq_some_iff.1 hd
  rw [List.pairwise_iff_getElem] at hdistinct
  rcases Nat.lt_trichotomy i j with hlt | heq | hgt
  · exact absurd hsame (hdistinct i j hi hj hlt)
  · exact heq
  · exact absurd hsame.symm (hdistinct j i hj hi hgt)

/-- Streams are told apart with their places, too. -/
theorem zipIdx_distinct {ids : List ConnectionId}
    (hdistinct : ids.Pairwise fun c d => c.connection ≠ d.connection) :
    ids.zipIdx.Pairwise fun x y => x.1.connection ≠ y.1.connection := by
  rw [← List.zipIdx_map_fst 0 ids, List.pairwise_map] at hdistinct
  exact hdistinct

end Application

end Wiretap
