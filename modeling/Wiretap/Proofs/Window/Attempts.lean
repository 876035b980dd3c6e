import Wiretap.Proofs.Window.Connections
/-!
# Connects that fail are counted like those that succeed

A connect that the policy lets through takes the next ordinal of its address before the outside is
asked, and is counted under the identity that its stream would have, whatever the outside answers.
So what the ledger and its windows know as connections are **attempts**.  This file says what that
comes to, in a run of connects of which any may fail.

* The attempts on an address have its ordinals without gaps (`ordinals_run`), and the streams that
  come of them have gaps wherever a stream comes after a failure (`ordinals_opened_iff`).
* Each attempt has a counter of its own, which reads one operation (`get?_attempt`).
* A connection expectation counts attempts (`observed_attempts`).

All of it rests on the identities of the attempts being new and different from each other, which is
`Application.connects_distinct` for the run from its beginning.
-/

namespace Wiretap

/-! ## Counters of which each is new -/

namespace Increment

variable {κ : Type u} [BEq κ] [EquivBEq κ]

/-- Where no two increments go to one counter, a counter is given what its own increment adds. -/
theorem total_of_mem {increments : List (Increment κ)}
    (hdistinct : increments.Pairwise fun i j => (i.key == j.key) = false) {i : Increment κ}
    (hi : i ∈ increments) {k : κ} (hk : (i.key == k) = true) (x : Stats.Field) :
    total increments k x = i.gain x := by
  induction increments with
  | nil => cases hi
  | cons j rest ih =>
    obtain ⟨hfirst, hrest⟩ := List.pairwise_cons.1 hdistinct
    rw [total_cons]
    rcases List.mem_cons.1 hi with rfl | hi
    · have hnone : ¬ (rest.any fun i' => i'.key == k) = true := by
        intro hany
        obtain ⟨i', hi', hk'⟩ := List.any_eq_true.1 hany
        have hsame : (i.key == i'.key) = true := BEq.trans hk (BEq.symm hk')
        rw [hfirst i' hi'] at hsame
        cases hsame
      rw [if_pos hk, total_eq_zero hnone, Nat.add_zero]
    · have hother : ¬ (j.key == k) = true := by
        intro hj
        have hsame : (j.key == i.key) = true := BEq.trans hj (BEq.symm hk)
        rw [hfirst i hi] at hsame
        cases hsame
      rw [if_neg hother, Nat.zero_add]
      exact ih hrest hi

end Increment

namespace Ledger

variable {κ : Type u} [BEq κ] [EquivBEq κ]

/-- A counter that is new holds what was added to it. -/
theorem get?_countAll_of_new {counters : Table κ Stats} {increments : List (Increment κ)} {k : κ}
    (hnew : counters.contains k = false) (hany : (increments.any fun i => i.key == k) = true) :
    (countAll counters increments).get? k = some (.ofGain (Increment.total increments k)) := by
  have hcontains := contains_countAll counters increments k
  rw [hany, Bool.or_true, Table.contains_eq_isSome] at hcontains
  obtain ⟨s, hs⟩ := Option.isSome_iff_exists.1 hcontains
  have hnone := Table.get?_eq_none hnew
  rw [hs]
  refine congrArg some (Stats.ext_get fun x => ?_)
  have hreading := reading_countAll counters increments k x
  simp only [reading, hs, hnone, Option.getD_some, Option.getD_none, Stats.get_zero,
    UInt64.zero_add] at hreading
  rw [hreading, Stats.get_ofGain]

/-- A counter that nothing was added to stays as it was. -/
theorem get?_countAll_of_other (counters : Table κ Stats) {increments : List (Increment κ)} {k : κ}
    (hnone : ∀ i ∈ increments, (i.key == k) = false) :
    (countAll counters increments).get? k = counters.get? k := by
  induction increments generalizing counters with
  | nil => rfl
  | cons i rest ih =>
    obtain ⟨hfirst, hrest⟩ := List.forall_mem_cons.1 hnone
    have hstep : countAll counters (i :: rest) =
        countAll (count counters i.key (.ofGain i.gain)) rest := rfl
    rw [hstep, ih _ hrest]
    exact Table.get?_alter_other counters hfirst _

end Ledger

/-! ## Attempts -/

namespace ConnectCall

/-- Whether a stream came of the connect. -/
def opened (c : ConnectCall) : Bool := c.stream.isSome

/-- The connects to an address, in order. -/
def toAddress (address : Address) (connects : List ConnectCall) : List ConnectCall :=
  connects.filter fun c => c.id.address == address

/-- The ordinals of connects, in order. -/
def ordinals (connects : List ConnectCall) : List Nat := connects.map fun c => c.id.ordinal.toNat

/-- The connect as a call on its connection. -/
def call (c : ConnectCall) : StreamCall where
  stream := c.stream
  id := c.id
  thread := c.id.owner
  gain := c.gain

theorem key_call (c : ConnectCall) : c.call.increment.key = c.id := by
  show Tap.identityOn c.id c.id.owner = c.id
  rw [Tap.identityOn, if_pos BEq.rfl]

/-- What a connect adds is its time and one operation, and that fits a counter. -/
theorem ofGain_gain (c : ConnectCall) : Stats.ofGain c.gain = .operation c.timing.elapsed := by
  simp only [Stats.ofGain, gain, UInt64.ofNat_toNat]
  rfl

theorem gain_lt (c : ConnectCall) (x : Stats.Field) : c.gain x < 2 ^ 64 := by
  cases x with
  | elapsed => exact c.timing.elapsed.toNat_lt
  | sent | received | rows | operations =>
    simp [gain]

/-- **The ordinals of the streams have no gaps exactly if no failure comes before a stream.**  The
attempts themselves have no gaps; the induction takes off the first of them, which either has the
first ordinal or leaves it out for good. -/
theorem ordinals_opened_iff {attempts : List ConnectCall} {first : Nat}
    (h : ordinals attempts = List.range' first attempts.length) :
    (∃ n, ordinals (attempts.filter opened) = List.range' first n) ↔
      attempts.Pairwise fun earlier later => later.opened = true → earlier.opened = true := by
  induction attempts generalizing first with
  | nil => exact ⟨fun _ => .nil, fun _ => ⟨0, rfl⟩⟩
  | cons c rest ih =>
    obtain ⟨hc, hrest⟩ := List.cons_eq_cons.1 h
    have hlater := ih hrest
    by_cases hopened : c.opened = true
    · rw [List.filter_cons_of_pos hopened, List.pairwise_cons]
      have hfirst : ordinals (c :: rest.filter opened) =
          first :: ordinals (rest.filter opened) := congrArg (· :: _) hc
      rw [hfirst]
      constructor
      · rintro ⟨n, hn⟩
        cases n with
        | zero => cases hn
        | succ n =>
          refine ⟨fun _ _ _ => hopened, hlater.1 ⟨n, ?_⟩⟩
          exact (List.cons_eq_cons.1 hn).2
      · rintro ⟨-, hpairwise⟩
        obtain ⟨n, hn⟩ := hlater.2 hpairwise
        exact ⟨n + 1, by rw [hn, List.range'_succ]⟩
    · rw [List.filter_cons_of_neg hopened, List.pairwise_cons]
      constructor
      · rintro ⟨n, hn⟩
        -- the first ordinal is used up, so there is no stream at all
        have hnone : rest.filter opened = [] := by
          cases hfilter : rest.filter opened with
          | nil => rfl
          | cons d more =>
            rw [hfilter] at hn
            have hd : d ∈ rest := List.mem_of_mem_filter (hfilter ▸ List.mem_cons_self)
            have hordinal : d.id.ordinal.toNat ∈ List.range' (first + 1) rest.length := by
              rw [← hrest]
              exact List.mem_map_of_mem hd
            have habove := (List.mem_range'_1.1 hordinal).1
            cases n with
            | zero => cases hn
            | succ n =>
              have hd_first : d.id.ordinal.toNat = first := (List.cons_eq_cons.1 hn).1
              omega
        have hfailed : ∀ d ∈ rest, ¬ d.opened = true := List.filter_eq_nil_iff.1 hnone
        refine ⟨fun d hd hd_opened => absurd hd_opened (hfailed d hd), hlater.1 ⟨0, ?_⟩⟩
        rw [hnone]
        rfl
      · rintro ⟨hfailed, -⟩
        have hnone : rest.filter opened = [] := by
          refine List.filter_eq_nil_iff.2 fun d hd hd_opened => hopened ?_
          exact hfailed d hd hd_opened
        exact ⟨0, by rw [hnone]; rfl⟩

end ConnectCall

namespace Application

variable {σ : Type}

/-- **The attempts on an address have its ordinals in order,** from the next one on, whether a
stream comes of them or not. -/
theorem ordinals_run (a : Application σ) {actions : List (Action σ)}
    (hclear : Action.clear ∉ actions) (address : Address)
    (hroom : a.tap.ledger.dealt address +
      ConnectCall.countTo address (a.connects actions) < 2 ^ 32) :
    ConnectCall.ordinals (ConnectCall.toAddress address (a.connects actions)) =
        List.range' (a.tap.ledger.dealt address)
          (ConnectCall.countTo address (a.connects actions)) ∧
      (a.run actions).tap.ledger.dealt address =
        a.tap.ledger.dealt address + ConnectCall.countTo address (a.connects actions) := by
  induction actions generalizing a with
  | nil => exact ⟨rfl, rfl⟩
  | cons act rest ih =>
    obtain ⟨hact, hrest⟩ := List.ne_and_not_mem_of_not_mem_cons hclear
    rw [connects_cons] at hroom ⊢
    rw [run_cons]
    cases hconnect : (a.happening? act).bind Happening.connect? with
    | none =>
      rw [hconnect] at hroom
      have hsame := Ledger.dealt_congr (perform_ordinals_of_quiet hact.symm hconnect) address
      have hlater := ih (a.perform act) hrest (by rw [hsame]; exact hroom)
      rw [hsame] at hlater
      exact hlater
    | some c =>
      rw [hconnect] at hroom
      obtain ⟨hordinal, hordinals⟩ := perform_ordinals_of_connect hconnect
      have hdealt := Ledger.dealt_congr hordinals address
      rw [Option.toList_some, List.singleton_append] at hroom ⊢
      by_cases haddress : (c.id.address == address) = true
      · have hcount : ConnectCall.countTo address (c :: (a.perform act).connects rest) =
            ConnectCall.countTo address ((a.perform act).connects rest) + 1 :=
          List.countP_cons_of_pos haddress
        have hattempts : ConnectCall.toAddress address (c :: (a.perform act).connects rest) =
            c :: ConnectCall.toAddress address ((a.perform act).connects rest) :=
          List.filter_cons_of_pos haddress
        rw [hcount] at hroom ⊢
        rw [hattempts]
        obtain rfl := eq_of_beq haddress
        rw [Ledger.dealt_nextOrdinal_self (by omega)] at hdealt
        obtain ⟨htail, hafter⟩ := ih (a.perform act) hrest (by omega)
        rw [hdealt] at htail hafter
        refine ⟨?_, by omega⟩
        rw [List.range'_succ, ← htail, ← hordinal]
        rfl
      · have hcount : ConnectCall.countTo address (c :: (a.perform act).connects rest) =
            ConnectCall.countTo address ((a.perform act).connects rest) :=
          List.countP_cons_of_neg haddress
        have hattempts : ConnectCall.toAddress address (c :: (a.perform act).connects rest) =
            ConnectCall.toAddress address ((a.perform act).connects rest) :=
          List.filter_cons_of_neg haddress
        rw [hcount] at hroom ⊢
        rw [hattempts]
        rw [Ledger.dealt_nextOrdinal_other _ fun h => haddress (beq_iff_eq.2 h)] at hdealt
        obtain ⟨htail, hafter⟩ := ih (a.perform act) hrest (by omega)
        rw [hdealt] at htail hafter
        exact ⟨htail, hafter⟩

/-- Of a run of connects nothing happens but connects. -/
theorem streamCalls_of_connects (a : Application σ) {actions : List (Action σ)}
    (hconnects : ∀ act ∈ actions, act.isConnect = true) :
    a.streamCalls actions = (a.connects actions).map ConnectCall.call := by
  induction actions generalizing a with
  | nil => rfl
  | cons act rest ih =>
    obtain ⟨hact, hrest⟩ := List.forall_mem_cons.1 hconnects
    have hlater := ih (a.perform act) hrest
    have hnow : (a.happening? act).toList.filterMap Happening.streamCall? =
        ((a.happening? act).bind Happening.connect?).toList.map ConnectCall.call := by
      cases act with
      | connect caller address outside =>
        simp only [happening?]
        split <;> rfl
      | _ => cases hact
    rw [streamCalls, happenings_cons, List.filterMap_append, hnow, connects_cons, List.map_append,
      ← hlater]
    rfl

/-- Every connect has its increment, and every increment is that of a connect. -/
theorem mem_increments_of_connects (a : Application σ) {actions : List (Action σ)}
    (hconnects : ∀ act ∈ actions, act.isConnect = true) {i : Increment ConnectionId} :
    i ∈ (a.streamCalls actions).map StreamCall.increment ↔
      ∃ c ∈ a.connects actions, i = c.call.increment := by
  rw [a.streamCalls_of_connects hconnects, List.map_map, List.mem_map]
  exact ⟨fun ⟨c, hc, h⟩ => ⟨c, hc, h.symm⟩, fun ⟨c, hc, h⟩ => ⟨c, hc, h.symm⟩⟩

/-- Every connection that is counted after a run was asked for in it, by some connect. -/
theorem exists_connect_of_contains {a : Application σ} (hfresh : a.Fresh)
    {actions : List (Action σ)} (hmonitor : a.tap.settings.monitorSockets = true)
    (hclear : Action.clear ∉ actions) {k : ConnectionId}
    (h : (a.run actions).tap.ledger.sockets.contains k = true) :
    ∃ c ∈ a.connects actions, c.id.connection = k.connection := by
  rw [a.run_sockets hmonitor hclear, hfresh.sockets, Ledger.contains_countAll,
    Table.contains_empty, Bool.false_or] at h
  obtain ⟨i, hi, hk⟩ := List.any_eq_true.1 h
  obtain ⟨call, hcall, rfl⟩ := List.mem_map.1 hi
  have hconnection : call.id.connection = k.connection := by
    rw [← ConnectionId.connection_congr hk]
    exact (StreamCall.identityOn_connection call.id call.thread).symm
  obtain ⟨happened, hhappened, hof⟩ := List.mem_filterMap.1 hcall
  cases happened with
  | connect c =>
    cases hof
    exact ⟨c, List.mem_filterMap.2 ⟨_, hhappened, rfl⟩, hconnection⟩
  | transfer c =>
    cases hof
    -- a transfer happens on a stream, and every stream came of a connect
    have hplace : (a.run actions).ids[c.stream]? = some c.id := a.refersTo_run hhappened
    have hnone : a.ids = [] := by
      rw [ids, hfresh.streams]
      rfl
    rw [run_ids, hnone, List.nil_append] at hplace
    obtain ⟨opening, hopening, hopened⟩ := List.mem_filterMap.1 (List.mem_of_getElem? hplace)
    cases opening with
    | connect d =>
      obtain ⟨_, -, hid⟩ := Option.map_eq_some_iff.1 hopened
      refine ⟨d, List.mem_filterMap.2 ⟨_, hopening, rfl⟩, ?_⟩
      rw [hid]
      exact hconnection
    | _ => cases hopened
  | _ => cases hof

section Attempts

variable {a : Application σ} (hfresh : a.Fresh) {before after : List (Action σ)}
  (hmonitor : a.tap.settings.monitorSockets = true) (hclear : Action.clear ∉ before ++ after)
  (hfew : ∀ address, ConnectCall.countTo address (a.connects (before ++ after)) < 2 ^ 32)

include hfresh hclear hfew

/-- No two connects of a run agree in address and ordinal, the earlier ones included. -/
theorem attempts_distinct :
    (∀ c ∈ a.connects before, ∀ d ∈ (a.run before).connects after,
        c.id.connection ≠ d.id.connection) ∧
      ((a.run before).connects after).Pairwise fun c d => c.id.connection ≠ d.id.connection := by
  have hpairwise := (a.connects_distinct hclear fun address => by
    rw [hfresh.dealt, Nat.zero_add]
    exact hfew address).2
  rw [connects_append] at hpairwise
  obtain ⟨-, hlater, hacross⟩ := List.pairwise_append.1 hpairwise
  exact ⟨hacross, hlater⟩

/-- The attempts on an address take its ordinals one after another, and where there are gaps in the
ordinals of the streams, a failure came before a stream. -/
theorem ordinals_attempts (address : Address) :
    ConnectCall.ordinals (ConnectCall.toAddress address ((a.run before).connects after)) =
        List.range' ((a.run before).tap.ledger.dealt address)
          (ConnectCall.countTo address ((a.run before).connects after)) ∧
      (a.run (before ++ after)).tap.ledger.dealt address =
        (a.run before).tap.ledger.dealt address +
          ConnectCall.countTo address ((a.run before).connects after) ∧
      ((∃ n, ConnectCall.ordinals ((ConnectCall.toAddress address
            ((a.run before).connects after)).filter ConnectCall.opened) =
          List.range' ((a.run before).tap.ledger.dealt address) n) ↔
        (ConnectCall.toAddress address ((a.run before).connects after)).Pairwise
          fun earlier later => later.opened = true → earlier.opened = true) := by
  have hearlier : Action.clear ∉ before := fun h => hclear (List.mem_append_left _ h)
  have hlater : Action.clear ∉ after := fun h => hclear (List.mem_append_right _ h)
  have hcount := hfew address
  have hall : ConnectCall.countTo address (a.connects (before ++ after)) =
      ConnectCall.countTo address (a.connects before) +
        ConnectCall.countTo address ((a.run before).connects after) := by
    rw [connects_append]
    exact List.countP_append
  have hzero := hfresh.dealt address
  have hbefore := (a.ordinals_run hearlier address (by omega)).2
  obtain ⟨hordinals, hnext⟩ := (a.run before).ordinals_run hlater address (by omega)
  have hlength : (ConnectCall.toAddress address ((a.run before).connects after)).length =
      ConnectCall.countTo address ((a.run before).connects after) :=
    List.countP_eq_length_filter.symm
  refine ⟨hordinals, ?_, ConnectCall.ordinals_opened_iff ?_⟩
  · rw [run_append]
    exact hnext
  · rw [hlength]
    exact hordinals

include hmonitor

/-- An attempt has no counter before it. -/
theorem attempt_new {c : ConnectCall} (hc : c ∈ (a.run before).connects after) {k : ConnectionId}
    (hk : k.connection = c.id.connection) :
    (a.run before).tap.ledger.sockets.contains k = false := by
  have hearlier : Action.clear ∉ before := fun h => hclear (List.mem_append_left _ h)
  rw [Bool.eq_false_iff]
  intro hcontains
  obtain ⟨d, hd, hsame⟩ := exists_connect_of_contains hfresh hmonitor hearlier hcontains
  exact (attempts_distinct hfresh hclear hfew).1 d hd c hc (hsame.trans hk)

variable (hconnects : ∀ act ∈ after, act.isConnect = true)

include hconnects

omit hmonitor in
/-- The increments of the attempts go to different counters. -/
theorem attempts_keys_distinct :
    (((a.run before).streamCalls after).map StreamCall.increment).Pairwise
      fun i j => (i.key == j.key) = false := by
  rw [(a.run before).streamCalls_of_connects hconnects, List.map_map, List.pairwise_map]
  refine (attempts_distinct hfresh hclear hfew).2.imp fun {c d} hne => ?_
  rw [Bool.eq_false_iff]
  intro hsame
  have hkeys : (c.id == d.id) = true := by
    rw [← c.key_call, ← d.key_call]
    exact hsame
  exact hne (ConnectionId.connection_congr hkeys)

/-- What attempts add to a counter fits, since each counter gets one of them at most. -/
theorem attempts_fit :
    Ledger.Fits (a.run before).tap.ledger.sockets
      (((a.run before).streamCalls after).map StreamCall.increment) := by
  intro k x
  by_cases hany : ((((a.run before).streamCalls after).map StreamCall.increment).any
      fun i => i.key == k) = true
  · obtain ⟨i, hi, hk⟩ := List.any_eq_true.1 hany
    rw [Increment.total_of_mem
      (attempts_keys_distinct hfresh hclear hfew hconnects) hi hk x]
    obtain ⟨c, hc, rfl⟩ := ((a.run before).mem_increments_of_connects hconnects).1 hi
    rw [c.key_call] at hk
    have hnew := Table.get?_eq_none (attempt_new hfresh hmonitor hclear hfew hc
      (ConnectionId.connection_congr hk).symm)
    have hreading : Ledger.reading (a.run before).tap.ledger.sockets k x = 0 := by
      rw [Ledger.reading, hnew, Option.getD_none, Stats.get_zero]
    have hgain := c.gain_lt x
    rw [hreading, UInt64.toNat_zero, Nat.zero_add]
    exact hgain
  · rw [Increment.total_eq_zero hany]
    exact UInt64.toNat_lt _

/-- **Each attempt has a counter of its own,** which reads one operation and the time that the
connect took, whether a stream came of it or not. -/
theorem get?_attempt {c : ConnectCall} (hc : c ∈ (a.run before).connects after) :
    (a.run (before ++ after)).tap.ledger.sockets.get? c.id =
      some (.operation c.timing.elapsed) := by
  have hlater : Action.clear ∉ after := fun h => hclear (List.mem_append_right _ h)
  have hsettings : (a.run before).tap.settings = a.tap.settings := a.run_settings before
  have hi := ((a.run before).mem_increments_of_connects hconnects).2 ⟨c, hc, rfl⟩
  have hkey : (c.call.increment.key == c.id) = true := by
    rw [c.key_call]
    exact BEq.rfl
  have hany : ((((a.run before).streamCalls after).map StreamCall.increment).any
      fun i => i.key == c.id) = true := List.any_eq_true.2 ⟨_, hi, hkey⟩
  have hdistinct := attempts_keys_distinct hfresh hclear hfew hconnects
  have htotal : Increment.total
      (((a.run before).streamCalls after).map StreamCall.increment) c.id = c.gain :=
    funext fun x => Increment.total_of_mem hdistinct hi hkey x
  rw [run_append, (a.run before).run_sockets (hsettings ▸ hmonitor) hlater,
    Ledger.get?_countAll_of_new (attempt_new hfresh hmonitor hclear hfew hc rfl) hany, htotal,
    c.ofGain_gain]

omit hfresh hfew in
/-- No other counter is touched. -/
theorem get?_of_no_attempt {k : ConnectionId}
    (hk : ∀ c ∈ (a.run before).connects after, (c.id == k) = false) :
    (a.run (before ++ after)).tap.ledger.sockets.get? k =
      (a.run before).tap.ledger.sockets.get? k := by
  have hlater : Action.clear ∉ after := fun h => hclear (List.mem_append_right _ h)
  have hsettings : (a.run before).tap.settings = a.tap.settings := a.run_settings before
  rw [run_append, (a.run before).run_sockets (hsettings ▸ hmonitor) hlater]
  refine Ledger.get?_countAll_of_other _ fun i hi => ?_
  obtain ⟨c, hc, rfl⟩ := ((a.run before).mem_increments_of_connects hconnects).1 hi
  rw [c.key_call]
  exact hk c hc

/-- **A connection expectation counts attempts.** -/
theorem observed_attempts {s : Spy} (hbegins : s.BeginsAt (a.run before).tap.ledger)
    {e : Expectation} {matcher : AddressMatcher} (htarget : e.target = .connections matcher) :
    (s.finding (a.run (before ++ after)).tap.ledger e).observed =
      .ofNat (((a.run before).connects after).countP fun c =>
        matcher.accepts c.id.address && e.threads.selects c.id.owner s.creator) := by
  have hlater : Action.clear ∉ after := fun h => hclear (List.mem_append_right _ h)
  have hfits := attempts_fit hfresh hmonitor hclear hfew hconnects
  let selected : ConnectCall → Bool := fun c =>
    matcher.accepts c.id.address && e.threads.selects c.id.owner s.creator
  have hnodup : ((((a.run before).connects after).filter selected).map fun c =>
      c.id.connection).Nodup := by
    refine List.pairwise_map.2 ?_
    exact List.Pairwise.filter _ (attempts_distinct hfresh hclear hfew).2
  have hkeys : (Observation.connections
      (a.selectedRows before after s matcher e.threads)).keys.Perm
        ((((a.run before).connects after).filter selected).map fun c => c.id.connection) := by
    refine (List.perm_ext_iff_of_nodup (Table.nodup_keys _) hnodup).2 fun key => ?_
    rw [Table.mem_keys_iff, (Observation.connections_spec _).contains,
      a.any_selectedRows before after hmonitor hbegins hlater hfits,
      (a.run before).streamCalls_of_connects hconnects, List.any_map, List.any_eq_true,
      List.mem_map]
    constructor
    · rintro ⟨c, hc, hcall⟩
      obtain ⟨hselected, hkey⟩ := Bool.and_eq_true_iff.1 hcall
      exact ⟨c, List.mem_filter.2 ⟨hc, hselected⟩, eq_of_beq hkey⟩
    · rintro ⟨c, hc, rfl⟩
      obtain ⟨hmem, hselected⟩ := List.mem_filter.1 hc
      exact ⟨c, hmem, Bool.and_eq_true_iff.2 ⟨hselected, BEq.rfl⟩⟩
  have hobserved := (Finding.evaluate_connections htarget
    (s.observe (a.run (before ++ after)).tap.ledger)).1
  have hlength := hkeys.length_eq
  rw [List.length_map, ← List.countP_eq_length_filter] at hlength
  rw [Spy.finding, hobserved]
  exact congrArg UInt64.ofNat hlength

end Attempts

/-- **Connects that fail are counted like those that succeed.**  Let an application begin with no
stream at a ledger that knows no connection, and let it do anything but clear the ledger; from then
on let there be connects only, of which the outside may let any fail, and fewer than `2 ^ 32` of
all connects go to each address.  Then for the connects that the policy lets through:

* those to an address have its ordinals one after another, and the next ordinal is behind them;
* the ordinals of the streams among them have no gap exactly if no failure came before a stream;
* each of them has a counter of its own, which was not there and reads one operation, and no other
  counter is touched;
* a connection expectation on a window that began with them counts those that it asks for. -/
theorem attempts_count_as_connections {a : Application σ} (hfresh : a.Fresh)
    (before after : List (Action σ)) (hmonitor : a.tap.settings.monitorSockets = true)
    (hclear : Action.clear ∉ before ++ after) (hconnects : ∀ act ∈ after, act.isConnect = true)
    (hfew : ∀ address, ConnectCall.countTo address (a.connects (before ++ after)) < 2 ^ 32) :
    let here := (a.run before).tap.ledger
    let now := (a.run (before ++ after)).tap.ledger
    let attempts := (a.run before).connects after
    (∀ address,
      ConnectCall.ordinals (ConnectCall.toAddress address attempts) =
        List.range' (here.dealt address) (ConnectCall.countTo address attempts) ∧
      now.dealt address = here.dealt address + ConnectCall.countTo address attempts ∧
      ((∃ n, ConnectCall.ordinals
            ((ConnectCall.toAddress address attempts).filter ConnectCall.opened) =
          List.range' (here.dealt address) n) ↔
        (ConnectCall.toAddress address attempts).Pairwise fun earlier later =>
          later.opened = true → earlier.opened = true)) ∧
    (∀ c ∈ attempts, here.sockets.get? c.id = none ∧
      now.sockets.get? c.id = some (.operation c.timing.elapsed)) ∧
    (∀ k, (∀ c ∈ attempts, (c.id == k) = false) → now.sockets.get? k = here.sockets.get? k) ∧
    ∀ (s : Spy) (e : Expectation) (matcher : AddressMatcher), s.BeginsAt here →
      e.target = .connections matcher →
      (s.finding now e).observed = .ofNat (attempts.countP fun c =>
        matcher.accepts c.id.address && e.threads.selects c.id.owner s.creator) := by
  intro here now attempts
  refine ⟨ordinals_attempts hfresh hclear hfew, ?_, ?_, ?_⟩
  · intro c hc
    have hnew := Table.get?_eq_none (attempt_new hfresh hmonitor hclear hfew hc rfl)
    exact ⟨hnew, get?_attempt hfresh hmonitor hclear hfew hconnects hc⟩
  · intro k hk
    exact get?_of_no_attempt hmonitor hclear hconnects hk
  · intro s e matcher hbegins htarget
    exact observed_attempts hfresh hmonitor hclear hfew hconnects hbegins htarget

/-- A connect that the outside refuses. -/
def refusedOutside : Action Unit :=
  .connect (α := Unit) (ε := String) ⟨⟨1, none⟩, "shop:2"⟩ ⟨"db", 5432⟩ fun s =>
    (.error "refused", s)

/-- After a stream was opened, the next connect to its address fails, and one more succeeds: its
ordinal is not the next one, and a window over both connects shows two connections. -/
theorem attempts_count_as_connections_refusedOutside :
    let here := (ticking.run openOne).tap.ledger
    let now := (ticking.run (openOne ++ refusedOutside :: openOne)).tap.ledger
    here.dealt ⟨"db", 5432⟩ = 1 ∧ now.dealt ⟨"db", 5432⟩ = 3 ∧
      (¬ ∃ n, ConnectCall.ordinals ((ConnectCall.toAddress ⟨"db", 5432⟩
          ((ticking.run openOne).connects (refusedOutside :: openOne))).filter
            ConnectCall.opened) = List.range' 1 n) ∧
      ((Spy.begin ⟨1, none⟩ here).finding now
        { target := .connections {}, count := .exact 1, rows := none, threads := .any }).observed =
          2 := by
  intro here now
  obtain ⟨hordinals, -, -, hobserved⟩ :=
    attempts_count_as_connections (a := ticking) ⟨rfl, rfl, rfl, rfl⟩ openOne
      (refusedOutside :: openOne) rfl (by simp [openOne, refusedOutside])
      (by simp [openOne, refusedOutside, Action.isConnect])
      (fun address => Nat.lt_of_le_of_lt List.countP_le_length (by decide))
  obtain ⟨-, hnext, hgaps⟩ := hordinals ⟨"db", 5432⟩
  have hhere : here.dealt ⟨"db", 5432⟩ = 1 := by decide
  have hgap : ¬ (ConnectCall.toAddress ⟨"db", 5432⟩
      ((ticking.run openOne).connects (refusedOutside :: openOne))).Pairwise
        fun earlier later => later.opened = true → earlier.opened = true := by
    decide
  refine ⟨hhere, hnext.trans (by decide), ?_, ?_⟩
  · rw [← hhere]
    exact fun hrange => hgap (hgaps.1 hrange)
  · rw [hobserved _ _ {} (.begin ⟨1, none⟩) rfl]
    decide

/-- It is not so that a connect which fails leaves the ordinals and the counters as they were. -/
theorem failed_connect_is_counted :
    ¬ ∀ (a : Application Unit) (act : Action Unit), a.Fresh →
      a.tap.settings.monitorSockets = true → act.isConnect = true →
      (∀ c ∈ a.connects [act], c.opened = false) →
      (∀ address, (a.perform act).tap.ledger.dealt address = a.tap.ledger.dealt address) ∧
        ∀ k, (a.perform act).tap.ledger.sockets.get? k = a.tap.ledger.sockets.get? k := by
  intro hall
  have hsame := (hall ticking refusedOutside ⟨rfl, rfl, rfl, rfl⟩ rfl rfl (by decide)).1
    ⟨"db", 5432⟩
  revert hsame
  decide

end Application

end Wiretap
