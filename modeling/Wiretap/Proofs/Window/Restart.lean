import Wiretap.Proofs.Window.Connections
import Wiretap.Proofs.Window.Statements
import Wiretap.Proofs.Window.Traffic
/-!
# A ledger that is cleared inside a window

A window tells that the ledger was cleared by what it finds there: a quantity that stands below
what it was when the window began, or fewer packets than there were.  That works until the new
counter has **caught up** with the old one.  From then on the window takes the counter for the old
one, and what it shows is short by what had been counted before it began.

This file says that this is the only way in which a clearing is missed.

* `Stats.since_eq_self_iff` — when the difference of two readings is the whole later one;
* `Reconstruction.flow_packetsSince_iff` — when the packets since a position are all packets;
* `cleared_window_exact_iff` — after a clearing, a window shows of each counter and of each
  connection all that came since, exactly as long as it has not caught up;
* `restart_missed` — a window that shows one statement where two were made since the clearing.
-/

namespace Wiretap

/-! ## Counters -/

namespace Stats

/-- A gain is what was added to every quantity. -/
theorem gain?_eq_some_iff {now before gain : Stats} :
    now.gain? before = some gain ↔
      ∀ x, (now.get x).toNat = (before.get x).toNat + (gain.get x).toNat := by
  constructor
  · intro h
    simp only [gain?, Option.bind_eq_bind, Option.bind_eq_some_iff, Option.pure_def,
      Option.some.injEq] at h
    obtain ⟨_, helapsed, _, hsent, _, hreceived, _, hrows, _, hoperations, rfl⟩ := h
    intro x
    cases x with
    | elapsed => exact since?_eq_some.1 helapsed
    | sent => exact since?_eq_some.1 hsent
    | received => exact since?_eq_some.1 hreceived
    | rows => exact since?_eq_some.1 hrows
    | operations => exact since?_eq_some.1 hoperations
  · intro h
    simp only [gain?, Option.bind_eq_bind, Option.bind_eq_some_iff, Option.pure_def,
      Option.some.injEq]
    exact ⟨_, since?_eq_some.2 (h .elapsed), _, since?_eq_some.2 (h .sent), _,
      since?_eq_some.2 (h .received), _, since?_eq_some.2 (h .rows), _,
      since?_eq_some.2 (h .operations), rfl⟩

/-- A reading that stands nowhere below an earlier one has a gain over it. -/
theorem exists_gain? {now before : Stats} (h : ∀ x, before.get x ≤ now.get x) :
    ∃ gain, now.gain? before = some gain := by
  refine ⟨.ofGain fun x => (now.get x - before.get x).toNat, gain?_eq_some_iff.2 fun x => ?_⟩
  have hle := UInt64.le_iff_toNat_le.1 (h x)
  rw [get_ofGain, UInt64.ofNat_toNat, UInt64.toNat_sub_of_le _ _ (h x)]
  omega

/-- **All of a reading is the gain** exactly if there was nothing before, or some quantity stands
below what it was. -/
theorem since_eq_self_iff {now before : Stats} :
    now.since before = now ↔ (∀ x, before.get x = 0) ∨ ∃ x, now.get x < before.get x := by
  cases hgain : now.gain? before with
  | none =>
    have hsince : now.since before = now := by rw [since, hgain, Option.getD_none]
    have hbelow : ∃ x, now.get x < before.get x := by
      by_contra hnot
      obtain ⟨gain, hsome⟩ := exists_gain? fun x => UInt64.not_lt.1 fun hx => hnot ⟨x, hx⟩
      rw [hgain] at hsome
      cases hsome
    exact ⟨fun _ => .inr hbelow, fun _ => hsince⟩
  | some gain =>
    have hsince : now.since before = gain := by rw [since, hgain, Option.getD_some]
    have hget := gain?_eq_some_iff.1 hgain
    rw [hsince]
    constructor
    · rintro rfl
      left
      intro x
      have hx := hget x
      refine UInt64.toNat_inj.1 ?_
      rw [UInt64.toNat_zero]
      omega
    · rintro (hzero | ⟨x, hx⟩)
      · refine ext_get fun x => UInt64.toNat_inj.1 ?_
        rw [hget x, hzero x, UInt64.toNat_zero, Nat.zero_add]
      · have hlt := UInt64.lt_iff_toNat_lt.1 hx
        have hsum := hget x
        omega

end Stats

open Ledger Increment

/-- What was counted for a key: nothing, or all that was added to its counter. -/
def Increment.counted {κ : Type u} [BEq κ] (increments : List (Increment κ)) (k : κ) :
    Option Stats :=
  if (increments.any fun i => i.key == k) = true then some (.ofGain (total increments k)) else none

namespace Baseline

variable {κ : Type u} [BEq κ]

/-- **Caught up.**  A new counter to which `total` was added has caught up with the one that stood
in a baseline: that one had counted something, and no quantity stands below it any more. -/
def CaughtUp (before : Table κ Stats) (k : κ) (total : Gain) : Prop :=
  (∃ x, reading before k x ≠ 0) ∧ ∀ x, (reading before k x).toNat ≤ total x

/-- What a window shows of a counter is all of it exactly as long as it has not caught up. -/
theorem rise_eq_self_iff {before : Table κ Stats} {k : κ} {total : Gain}
    (hfits : ∀ x, total x < 2 ^ 64) :
    rise before k (.ofGain total) = .ofGain total ↔ ¬ CaughtUp before k total := by
  have hget : ∀ x, ((Stats.ofGain total).get x).toNat = total x :=
    fun x => Stats.toNat_get_ofGain (hfits x)
  unfold rise CaughtUp reading
  cases hbefore : before.get? k with
  | none => simp
  | some earlier =>
    simp only [Option.getD_some, Stats.since_eq_self_iff, not_and_or, not_exists, not_not,
      not_forall, Nat.not_le, UInt64.lt_iff_toNat_lt, hget]

variable [EquivBEq κ]

/-- A counter that was made anew reads what was added to it. -/
theorem get?_countAll_empty {increments : List (Increment κ)} (hfits : Fits .empty increments)
    (k : κ) : (countAll .empty increments).get? k = counted increments k := by
  have hcontains := contains_countAll .empty increments k
  rw [Table.contains_eq_isSome, Table.contains_empty, Bool.false_or] at hcontains
  cases hnow : (countAll .empty increments).get? k with
  | none =>
    rw [hnow, Option.isSome_none] at hcontains
    rw [counted, ← hcontains, if_neg Bool.false_ne_true]
  | some s =>
    rw [hnow, Option.isSome_some] at hcontains
    have hrise : rise .empty k s = .ofGain (total increments k) := rise_countAll hfits hnow
    rw [counted, ← hcontains, if_pos rfl, ← hrise]
    rfl

/-- **A counter after a clearing.**  The window shows what was counted since exactly as long as the
new counter has not caught up. -/
theorem get?_gains_eq_counted_iff {before : Table κ Stats} {increments : List (Increment κ)}
    (hfits : Fits .empty increments) (honce : EachOnce increments) (k : κ) :
    (gains (countAll .empty increments) before).get? k = counted increments k ↔
      ¬ CaughtUp before k (total increments k) := by
  have htotal : ∀ x, total increments k x < 2 ^ 64 := by
    intro x
    have hx := hfits k x
    omega
  rw [get?_gains, get?_countAll_empty hfits, ← rise_eq_self_iff htotal, counted]
  by_cases hany : (increments.any fun i => i.key == k) = true
  · have hnonzero : ¬ (Stats.ofGain (total increments k)).isZero = true :=
      Stats.not_isZero_ofGain (one_le_total honce hany) (htotal .operations)
    rw [if_pos hany, Option.bind_some]
    constructor
    · intro h
      by_cases hzero : (rise before k (.ofGain (total increments k))).isZero = true
      · rw [if_pos hzero] at h
        cases h
      · rw [if_neg hzero] at h
        exact Option.some.inj h
    · intro h
      rw [h, if_neg hnonzero]
  · have hzero : total increments k = fun _ => 0 := total_eq_zero hany
    have hnot : ¬ CaughtUp before k (total increments k) := by
      rintro ⟨⟨x, hx⟩, hle⟩
      have hx' := hle x
      rw [hzero] at hx'
      exact hx (UInt64.toNat_inj.1 (Nat.le_zero.1 hx'))
    rw [if_neg hany, Option.bind_none, rise_eq_self_iff htotal]
    exact ⟨fun _ => hnot, fun _ => rfl⟩

end Baseline

/-! ## Packets -/

namespace Reconstruction

/-- A new history has **caught up** with a position if the position is that of a history with
bytes, and the new one reaches as far. -/
def CaughtUp (r : Reconstruction) (p : Position) : Prop := p ≠ {} ∧ r.reaches p = true

/-- Dropping bytes from the front adds none. -/
theorem length_dropFront_le (n : Nat) (packets : List Packet) :
    ((dropFront n packets).flatMap Packet.tagged).length ≤
      (packets.flatMap Packet.tagged).length := by
  cases packets with
  | nil => exact Nat.le_refl _
  | cons p rest =>
    simp only [dropFront]
    split
    · exact Nat.le_refl _
    · split
      · simp
      · simp [Packet.tagged_dropBytes]

/-- And it takes some away if there are any to take. -/
theorem length_dropFront_lt {n : Nat} (hn : n ≠ 0) {packets : List Packet} (hne : packets ≠ [])
    (hwhole : ∀ p ∈ packets, 0 < p.size) :
    ((dropFront n packets).flatMap Packet.tagged).length <
      (packets.flatMap Packet.tagged).length := by
  cases packets with
  | nil => exact absurd rfl hne
  | cons p rest =>
    have hp := hwhole p List.mem_cons_self
    have hlength := p.length_tagged
    simp only [dropFront, if_neg hn]
    split
    · rw [List.flatMap_cons, List.length_append]
      omega
    · rw [List.flatMap_cons, List.flatMap_cons, List.length_append, List.length_append,
        Packet.tagged_dropBytes, List.length_drop]
      omega

/-- Where no packet is empty, dropping one loses bytes. -/
theorem length_drop_lt {n : Nat} (hn : n ≠ 0) {packets : List Packet} (hne : packets ≠ [])
    (hwhole : ∀ p ∈ packets, 0 < p.size) :
    ((packets.drop n).flatMap Packet.tagged).length < (packets.flatMap Packet.tagged).length := by
  cases packets with
  | nil => exact absurd rfl hne
  | cons p rest =>
    have hp := hwhole p List.mem_cons_self
    have hlength := p.length_tagged
    obtain ⟨m, rfl⟩ := Nat.exists_eq_succ_of_ne_zero hn
    have hsplit : rest.flatMap Packet.tagged =
        (rest.take m).flatMap Packet.tagged ++ (rest.drop m).flatMap Packet.tagged := by
      rw [← List.flatMap_append, List.take_append_drop]
    rw [List.drop_succ_cons, List.flatMap_cons, hsplit, List.length_append, List.length_append]
    omega

/-- A history without packets reaches the first position only. -/
theorem packets_ne_nil_of_caughtUp {r : Reconstruction} {p : Position} (h : r.CaughtUp p) :
    r.packets ≠ [] := by
  intro hnil
  obtain ⟨hclosed, hcurrent⟩ := List.append_eq_nil_iff.1 hnil
  obtain ⟨hp, hreaches⟩ := h
  have hopen : r.openSize = 0 := by
    rw [openSize]
    cases hr : r.current with
    | none => rfl
    | some q => simp [hr] at hcurrent
  simp only [reaches, hclosed, hopen, List.length_nil, Bool.or_eq_true, Bool.and_eq_true,
    decide_eq_true_eq, beq_iff_eq, Nat.not_lt_zero, false_or, Nat.le_zero] at hreaches
  refine hp ?_
  rw [Position.mk.injEq]
  exact hreaches

/-- **All packets came since a position** exactly as long as the history has not caught up. -/
theorem flow_packetsSince_iff {r : Reconstruction} (hwhole : ∀ p ∈ r.packets, 0 < p.size)
    (p : Position) :
    (r.packetsSince p).flatMap Packet.tagged = r.packets.flatMap Packet.tagged ↔
      ¬ r.CaughtUp p := by
  have hall : (dropFront 0 (r.packets.drop 0)).flatMap Packet.tagged =
      r.packets.flatMap Packet.tagged := by rw [dropFront_zero, List.drop_zero]
  by_cases hcaught : r.CaughtUp p
  · have hne := packets_ne_nil_of_caughtUp hcaught
    obtain ⟨hp, hreaches⟩ := hcaught
    have hshort : ((r.packetsSince p).flatMap Packet.tagged).length <
        (r.packets.flatMap Packet.tagged).length := by
      unfold packetsSince
      simp only [if_pos hreaches]
      by_cases hclosed : p.closed = 0
      · have hopen : p.openBytes ≠ 0 := by
          intro hopen
          exact hp (by rw [Position.mk.injEq]; exact ⟨hclosed, hopen⟩)
        rw [hclosed, List.drop_zero]
        exact length_dropFront_lt hopen hne hwhole
      · exact Nat.lt_of_le_of_lt (length_dropFront_le _ _) (length_drop_lt hclosed hne hwhole)
    refine ⟨fun heq => absurd (congrArg List.length heq) (Nat.ne_of_lt hshort), fun hnot => ?_⟩
    exact absurd ⟨hp, hreaches⟩ hnot
  · refine ⟨fun _ => hcaught, fun _ => ?_⟩
    unfold packetsSince
    by_cases hreaches : r.reaches p = true
    · have hp : p = {} := by
        by_contra hp
        exact hcaught ⟨hp, hreaches⟩
      simp only [if_pos hreaches]
      rw [hp]
      exact hall
    · simp only [if_neg hreaches]
      exact hall

end Reconstruction

/-- The packets that a window has of a connection, before they are grouped. -/
def Spy.packets (s : Spy) (l : Ledger) (k : ConnectionId) : List Packet :=
  ((l.trafficSince s.baseline.traffic).get? k).getD []

/-- The packets of a spy are those since its position, or all where it has none. -/
theorem Spy.packets_eq (s : Spy) (l : Ledger) (k : ConnectionId) :
    s.packets l k = ((l.traffic.get? k).map fun r =>
      r.packetsSince ((s.baseline.traffic.get? k).getD {})).getD [] := by
  rw [packets, Ledger.trafficSince, Table.get?_filterMap Ledger.trafficSince_congr]
  cases l.traffic.get? k with
  | none => rfl
  | some r =>
    rw [Option.bind_some, Option.map_some, Option.getD_some]
    by_cases hempty : (r.packetsSince ((s.baseline.traffic.get? k).getD {})).isEmpty = true
    · simp only [if_pos hempty, Option.getD_none]
      exact (List.isEmpty_iff.1 hempty).symm
    · simp only [if_neg hempty, Option.getD_some]

/-! ## Runs -/

namespace Application

variable {σ : Type}

/-- What the statements of a run add, and to which counters. -/
def statementIncrements (a : Application σ) (actions : List (Action σ)) :
    List (Increment StatementId) :=
  (a.statements actions).map (StatementCall.increment a.tap.settings)

/-- What the calls of a run on connections add, and to which counters. -/
def socketIncrements (a : Application σ) (actions : List (Action σ)) :
    List (Increment ConnectionId) :=
  (a.streamCalls actions).map StreamCall.increment

/-- From a ledger without packets on, the packets of a connection have all bytes that moved. -/
theorem packets_of_run {a : Application σ} {actions : List (Action σ)}
    (hempty : a.tap.ledger.traffic = .empty)
    (hmonitor : a.tap.settings.monitorSockets = true)
    (hcapture : a.tap.settings.captureTraffic = true) (hclear : Action.clear ∉ actions)
    (hclock : (a.readings actions).Pairwise (· ≤ ·)) (k : ConnectionId) :
    (∀ r, (a.run actions).tap.ledger.traffic.get? k = some r →
      r.packets.flatMap Packet.tagged = Happening.bytesUnder k (a.happenings actions) ∧
        ∀ p ∈ r.packets, 0 < p.size) ∧
    ((a.run actions).tap.ledger.traffic.get? k = none →
      Happening.bytesUnder k (a.happenings actions) = []) := by
  let blank : Reconstruction := { connection := k, threshold := 0 }
  have hblank : Recorded blank [] 0 (a.tap.ledger.content.traffic.get? k) := by
    rw [Ledger.content_traffic, hempty]
    refine ⟨?_, ?_, fun _ => ⟨rfl, rfl, rfl⟩⟩
    · rintro r ⟨⟩
    · rintro r ⟨⟩
  have htimes : (0 :: Happening.times (a.happenings actions)).Pairwise (· ≤ ·) :=
    List.pairwise_cons.2 ⟨fun _ _ => UInt64.zero_le,
      hclock.sublist (Happening.times_sublist (a.happenings actions))⟩
  obtain ⟨now, -, hrecorded⟩ :=
    Ledger.noteAll_recorded hmonitor hcapture (a.cleared_notMem hclear) htimes hblank
  rw [← run_ledger, Ledger.content_traffic, List.nil_append] at hrecorded
  refine ⟨fun r hr => ⟨?_, (hrecorded.timely r hr).whole⟩, fun hnone => ?_⟩
  · exact (hrecorded.since r hr).flow
  · exact (hrecorded.nothing hnone).2.2

/-- Clearing comes last: the ledger that is left is the cleared one. -/
theorem ledger_run_clear (a : Application σ) (actions : List (Action σ)) :
    (a.run (actions ++ [.clear])).tap.ledger = (a.run actions).tap.ledger.clear := by
  rw [run_append]
  rfl

section Cleared

/-! What a window that began at another ledger shows of an application without counters and
packets. -/

variable {c : Application σ} {after : List (Action σ)} {opened : Ledger} {s : Spy}
  (hbegins : s.BeginsAt opened) (hclear : Action.clear ∉ after)

include hbegins hclear

/-- After a clearing, a statement is counted exactly unless it has caught up. -/
theorem statements_exact_iff (hempty : c.tap.ledger.statements = .empty)
    (hsql : c.tap.settings.monitorSql = true)
    (hfits : Ledger.Fits .empty (c.statementIncrements after)) (k : StatementId) :
    (s.observe (c.run after).tap.ledger).statements.get? k =
        Increment.counted (c.statementIncrements after) k ↔
      ¬ Baseline.CaughtUp opened.statements k
        (Increment.total (c.statementIncrements after) k) := by
  have honce := StatementCall.eachOnce_increments c.tap.settings (c.statements after)
  rw [Spy.observe, hbegins.baseline, c.run_statements hsql hclear, hempty]
  exact Baseline.get?_gains_eq_counted_iff hfits honce k

/-- After a clearing, a connection is counted exactly unless it has caught up. -/
theorem sockets_exact_iff (hempty : c.tap.ledger.sockets = .empty)
    (hmonitor : c.tap.settings.monitorSockets = true)
    (hfits : Ledger.Fits .empty (c.socketIncrements after)) (k : ConnectionId) :
    (s.observe (c.run after).tap.ledger).sockets.get? k =
        Increment.counted (c.socketIncrements after) k ↔
      ¬ Baseline.CaughtUp opened.sockets k
        (Increment.total (c.socketIncrements after) k) := by
  have honce := c.eachOnce_streamCalls after
  rw [Spy.observe, hbegins.baseline, c.run_sockets hmonitor hclear, hempty]
  exact Baseline.get?_gains_eq_counted_iff hfits honce k

/-- After a clearing, the packets are told exactly unless they have caught up. -/
theorem packets_exact_iff (hempty : c.tap.ledger.traffic = .empty)
    (hmonitor : c.tap.settings.monitorSockets = true)
    (hcapture : c.tap.settings.captureTraffic = true)
    (hclock : (c.readings after).Pairwise (· ≤ ·)) (k : ConnectionId) :
    (s.packets (c.run after).tap.ledger k).flatMap Packet.tagged =
        Happening.bytesUnder k (c.happenings after) ↔
      ¬ ∃ r, (c.run after).tap.ledger.traffic.get? k = some r ∧
        r.CaughtUp ((opened.positions.get? k).getD {}) := by
  obtain ⟨hsome, hnone⟩ := packets_of_run hempty hmonitor hcapture hclear hclock k
  rw [Spy.packets_eq, hbegins.baseline]
  cases hkept : (c.run after).tap.ledger.traffic.get? k with
  | none =>
    rw [hnone hkept]
    simp
  | some r =>
    obtain ⟨hflow, hwhole⟩ := hsome r hkept
    have hexact := Reconstruction.flow_packetsSince_iff hwhole ((opened.positions.get? k).getD {})
    rw [hflow] at hexact
    refine hexact.trans (not_congr ⟨fun hcaught => ⟨r, rfl, hcaught⟩, ?_⟩)
    rintro ⟨_, ⟨⟩, hcaught⟩
    exact hcaught

end Cleared

/-- **A clearing shows until the new counters have caught up.**  Let a spy be opened or reset, let
the ledger be cleared later on, and let actions follow that do not clear it again.  Then the window
shows of a counter just what was counted since the clearing if, and only if, that has not caught up
with what was counted when the window began; and it has of a connection just the bytes that moved
since if, and only if, the new packets have not come as far as the old ones had. -/
theorem cleared_window_exact_iff (a : Application σ) (before between after : List (Action σ))
    {s : Spy} (hsql : a.tap.settings.monitorSql = true)
    (hmonitor : a.tap.settings.monitorSockets = true)
    (hcapture : a.tap.settings.captureTraffic = true)
    (hbegins : s.BeginsAt (a.run before).tap.ledger) (hclear : Action.clear ∉ after)
    (hclock : ((a.run (before ++ between ++ [.clear])).readings after).Pairwise (· ≤ ·))
    (hstatements : Ledger.Fits .empty
      ((a.run (before ++ between ++ [.clear])).statementIncrements after))
    (hsockets : Ledger.Fits .empty
      ((a.run (before ++ between ++ [.clear])).socketIncrements after)) :
    let opened := (a.run before).tap.ledger
    let cleared := a.run (before ++ between ++ [.clear])
    let now := (cleared.run after).tap.ledger
    (∀ k, (s.observe now).statements.get? k =
        Increment.counted (cleared.statementIncrements after) k ↔
      ¬ Baseline.CaughtUp opened.statements k
        (Increment.total (cleared.statementIncrements after) k)) ∧
    (∀ k, (s.observe now).sockets.get? k =
        Increment.counted (cleared.socketIncrements after) k ↔
      ¬ Baseline.CaughtUp opened.sockets k
        (Increment.total (cleared.socketIncrements after) k)) ∧
    ∀ k, (s.packets now k).flatMap Packet.tagged =
        Happening.bytesUnder k (cleared.happenings after) ↔
      ¬ ∃ r, now.traffic.get? k = some r ∧ r.CaughtUp ((opened.positions.get? k).getD {}) := by
  intro opened cleared now
  have hsettings : cleared.tap.settings = a.tap.settings := a.run_settings _
  have hcleared : cleared.tap.ledger = (a.run (before ++ between)).tap.ledger.clear :=
    a.ledger_run_clear _
  refine ⟨fun k => ?_, fun k => ?_, fun k => ?_⟩
  · have hempty : cleared.tap.ledger.statements = .empty := by rw [hcleared]; rfl
    exact statements_exact_iff hbegins hclear hempty (hsettings ▸ hsql) hstatements k
  · have hempty : cleared.tap.ledger.sockets = .empty := by rw [hcleared]; rfl
    exact sockets_exact_iff hbegins hclear hempty (hsettings ▸ hmonitor) hsockets k
  · have hempty : cleared.tap.ledger.traffic = .empty := by rw [hcleared]; rfl
    exact packets_exact_iff hbegins hclear hempty (hsettings ▸ hmonitor) (hsettings ▸ hcapture)
      hclock k

/-- **A clearing that is missed.**  One statement is counted before the window begins and two after
the ledger was cleared inside it; the window shows one. -/
theorem restart_missed :
    let opened := ticking.run insertOne
    let cleared := ticking.run (insertOne ++ [.clear])
    let s := Spy.begin ⟨1, none⟩ opened.tap.ledger
    (cleared.statements (insertOne ++ insertOne)).length = 2 ∧
      s.statementCount (cleared.run (insertOne ++ insertOne)).tap.ledger .insert .any = 1 := by
  decide +kernel

/-- Two statements, and one byte on a stream. -/
def insertTwice : List (Action Unit) :=
  insertOne ++ insertOne ++
    [.send (ε := String) ⟨⟨1, none⟩, "shop:4"⟩ 0 [3] fun s => (.ok 1, s)]

/-- Of the statements one had been counted when the window began, so their counter has caught up,
and the window does not show both.  Of the stream two bytes had been, so its packets have not, and
the window has the byte. -/
theorem cleared_window_exact_iff_insertTwice :
    let opened := (ticking.run (insertOne ++ openPacket)).tap.ledger
    let cleared := ticking.run (insertOne ++ openPacket ++ [] ++ [.clear])
    let now := (cleared.run insertTwice).tap.ledger
    let s := Spy.begin ⟨1, none⟩ opened
    let insert : StatementId := ⟨"insert into t values (1)", .insert, ⟨1, none⟩, some "shop:1"⟩
    let stream : ConnectionId := ⟨⟨"db", 5432⟩, 0, ⟨1, none⟩, some "shop:1"⟩
    (s.observe now).statements.get? insert ≠
        Increment.counted (cleared.statementIncrements insertTwice) insert ∧
      (s.packets now stream).flatMap Packet.tagged = [(1, .sent, 3)] := by
  intro opened cleared now s insert stream
  have hstatements : Ledger.Fits (Ledger.countAll .empty [])
      (cleared.statementIncrements insertTwice) :=
    Ledger.fits_of_sum_lt fun x => by cases x <;> decide +kernel
  have hsockets : Ledger.Fits (Ledger.countAll .empty [])
      (cleared.socketIncrements insertTwice) :=
    Ledger.fits_of_sum_lt fun x => by cases x <;> decide +kernel
  obtain ⟨hcount, -, hpackets⟩ := ticking.cleared_window_exact_iff (insertOne ++ openPacket) []
    insertTwice rfl rfl rfl (.begin (l := opened) ⟨1, none⟩) (by simp [insertTwice, insertOne])
    (by decide +kernel) hstatements hsockets
  constructor
  · intro hexact
    refine (hcount insert).1 hexact ⟨⟨.operations, by decide +kernel⟩, fun x => ?_⟩
    cases x <;> decide +kernel
  · refine ((hpackets stream).2 ?_).trans (by decide +kernel)
    rintro ⟨r, hr, -, hreaches⟩
    have hshort : ((now.traffic.get? stream).any fun r =>
        r.reaches ((opened.positions.get? stream).getD {})) = false := by decide +kernel
    rw [hr] at hshort
    exact Bool.false_ne_true (hshort.symm.trans hreaches)

end Application

end Wiretap
