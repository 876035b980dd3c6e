import Wiretap.Proofs.Traffic.Resuming
import Wiretap.Proofs.Window.History
/-!
# Packets in a window may begin before it

A report shows for each packet when it began.  What a window reports ended in the window, but it
need not have begun there: a packet that was open when the window began, and was continued in it,
comes without the bytes that it had and with the time at which it began with these
(`packet_starts_before_window`).  **Nothing else begins too early** (`window_packets_start`), and
sorting and merging do not hide it, as the earliest packet of a group is always shown.

What happens after a mark in time feeds the ledger with what moves after it
(`Ledger.FedSince`).  That is the invariant of a run; what it means for one connection is
`Reconstruction.StartsSince`, and for a report `Ledger.ReportStarts`.
-/

namespace Wiretap

open Reconstruction

namespace Grouping

theorem start_erase (grouping : Grouping) (p : Packet) : (grouping.erase p).start = p.start := by
  unfold erase
  split <;> rfl

theorem last_erase (grouping : Grouping) (p : Packet) : (grouping.erase p).last = p.last := by
  unfold erase
  split <;> rfl

end Grouping

namespace Ledger

variable {mark : UInt64} {before l : Ledger}

/-- A reconstruction that is kept for a connection, or one without packets where none is. -/
def Holds (l : Ledger) (k : ConnectionId) (r : Reconstruction) : Prop :=
  l.traffic.get? k = some r ∨ l.traffic.get? k = none ∧ r.closed = [] ∧ r.current = none

/-- A packet that was open at one moment, and has more bytes at another. -/
def Resumed (before l : Ledger) (k : ConnectionId) (p : Packet) : Prop :=
  ∃ opened r, before.traffic.get? k = some opened ∧ l.traffic.get? k = some r ∧ opened.Grew r p

theorem Resumed.kept {k : ConnectionId} {p : Packet} (h : before.Resumed l k p) :
    ∃ r, l.traffic.get? k = some r := by
  obtain ⟨-, r, -, hr, -⟩ := h
  exact ⟨r, hr⟩

namespace Holds

variable {k : ConnectionId} {opened r : Reconstruction} {p : Packet}

theorem position (h : before.Holds k opened) :
    (before.positions.get? k).getD {} = opened.position := by
  have hpositions : before.positions.get? k =
      (before.traffic.get? k).map Reconstruction.position :=
    Table.get?_mapValues (fun _ _ _ _ => rfl) _ k
  rw [hpositions]
  rcases h with hkept | ⟨hnone, hclosed, hcurrent⟩
  · rw [hkept]
    rfl
  · rw [hnone, Reconstruction.position, openSize, hclosed, hcurrent]
    rfl

theorem get?_of_current (h : before.Holds k opened) (hp : opened.current = some p) :
    before.traffic.get? k = some opened := by
  rcases h with hkept | ⟨-, -, hcurrent⟩
  · exact hkept
  · rw [hcurrent] at hp
    cases hp

/-- A packet was resumed exactly if it was open and has grown. -/
theorem resumed_iff (h : before.Holds k opened) (hr : l.traffic.get? k = some r) :
    before.Resumed l k p ↔ opened.Grew r p := by
  constructor
  · rintro ⟨opened', r', hopened', hr', hgrew⟩
    rw [hr, Option.some.injEq] at hr'
    rcases h with hkept | ⟨hnone, -, -⟩
    · rw [hkept, Option.some.injEq] at hopened'
      rw [hopened', hr']
      exact hgrew
    · rw [hnone] at hopened'
      cases hopened'
  · intro hgrew
    exact ⟨opened, r, h.get?_of_current hgrew.1, hr, hgrew⟩

/-- The open packet is not without bytes. -/
theorem filled (h : before.Holds k opened) (hfed : before.Fed) (hp : opened.current = some p) :
    0 < p.size := by
  obtain ⟨id, threshold, feed, -, rfl⟩ := hfed k opened (h.get?_of_current hp)
  have hmem : p ∈ (ofFeed id threshold feed).packets := by
    rw [Reconstruction.packets, hp]
    simp
  exact filled_ofFeed hmem

end Holds

/-- What a ledger keeps after a mark in time is what it kept before, and was fed since. -/
structure FedSince (mark : UInt64) (before l : Ledger) : Prop where
  kept : ∀ k, l.traffic.get? k = none → before.traffic.get? k = none
  fed : ∀ k r, l.traffic.get? k = some r → ∃ opened feed, before.Holds k opened ∧
    r = opened.fed feed ∧ ∀ fed ∈ feed, fed.Since mark

namespace FedSince

theorem refl (mark : UInt64) (l : Ledger) : FedSince mark l l :=
  ⟨fun _ h => h, fun _ r hr => ⟨r, [], .inl hr, rfl, by simp⟩⟩

/-- One connection is fed once more. -/
private theorem take {k : ConnectionId} {r : Reconstruction} {next : Feed}
    (hnext : next.Since mark)
    (h : ∃ opened feed, before.Holds k opened ∧ r = opened.fed feed ∧
      ∀ fed ∈ feed, fed.Since mark) :
    ∃ opened feed, before.Holds k opened ∧ r.take next = opened.fed feed ∧
      ∀ fed ∈ feed, fed.Since mark := by
  obtain ⟨opened, feed, hopened, rfl, hfeed⟩ := h
  refine ⟨opened, feed ++ [next], hopened, ?_, ?_⟩
  · rw [fed_append]
    rfl
  · intro other hother
    rcases List.mem_append.1 hother with hother | hother
    · exact hfeed other hother
    · rw [List.mem_singleton.1 hother]
      exact hnext

theorem append (h : FedSince mark before l) (id : ConnectionId) {chunk : Chunk}
    (hbytes : chunk.bytes.isEmpty = false) (htime : mark ≤ chunk.time) :
    FedSince mark before (l.append id chunk) := by
  refine ⟨fun k hk => ?_, fun k r hr => ?_⟩
  · rw [get?_append l id k hbytes] at hk
    split at hk
    · cases hk
    · exact h.kept k hk
  · rw [get?_append l id k hbytes] at hr
    by_cases hkey : (id == k) = true
    · rw [if_pos hkey, Option.some.injEq] at hr
      have htaken : Feed.Since mark (.append chunk) := htime
      rw [← hr]
      refine take htaken ?_
      cases hkept : l.traffic.get? k with
      | none => exact ⟨_, [], .inr ⟨h.kept k hkept, rfl, rfl⟩, rfl, by simp⟩
      | some kept => exact h.fed k kept hkept
    · rw [if_neg hkey] at hr
      exact h.fed k r hr

theorem flush (h : FedSince mark before l) (id : ConnectionId) :
    FedSince mark before (l.flush id) := by
  refine ⟨fun k hk => ?_, fun k r hr => ?_⟩
  · rw [get?_flush] at hk
    split at hk
    · exact h.kept k (Option.map_eq_none_iff.1 hk)
    · exact h.kept k hk
  · rw [get?_flush] at hr
    by_cases hkey : (id == k) = true
    · rw [if_pos hkey] at hr
      obtain ⟨kept, hkept, rfl⟩ := Option.map_eq_some_iff.1 hr
      have htaken : Feed.Since mark .flush := trivial
      exact take htaken (h.fed k kept hkept)
    · rw [if_neg hkey] at hr
      exact h.fed k r hr

theorem of_traffic {l' : Ledger} (h : FedSince mark before l) (hsame : l'.traffic = l.traffic) :
    FedSince mark before l' := by
  refine ⟨fun k hk => ?_, fun k r hr => ?_⟩
  · rw [hsame] at hk
    exact h.kept k hk
  · rw [hsame] at hr
    exact h.fed k r hr

/-- **One happening** feeds what moves when it happens. -/
theorem note (h : FedSince mark before l) (s : Settings) {happened : Happening}
    (hcleared : happened ≠ .cleared) (htimes : ∀ t ∈ happened.readings, mark ≤ t) :
    FedSince mark before (l.note s happened) := by
  rcases l.note_traffic_cases s happened with
    hsame | ⟨c, rfl, hbytes, hsame⟩ | ⟨id, hsame⟩ | ⟨hclear, -⟩
  · exact h.of_traffic hsame
  · have htime : mark ≤ (c.chunk s).time := htimes c.timing.finish (by simp [Happening.readings])
    exact (h.append c.id hbytes htime).of_traffic hsame
  · exact (h.flush id).of_traffic hsame
  · exact absurd hclear hcleared

/-- **A run.**  By induction on what happens. -/
theorem noteAll (h : FedSince mark before l) (s : Settings) {happenings : List Happening}
    (hcleared : .cleared ∉ happenings)
    (htimes : ∀ t ∈ happenings.flatMap Happening.readings, mark ≤ t) :
    FedSince mark before (l.noteAll s happenings) := by
  induction happenings generalizing l with
  | nil => exact h
  | cons happened rest ih =>
    obtain ⟨hfirst, hrest⟩ := List.ne_and_not_mem_of_not_mem_cons hcleared
    rw [List.flatMap_cons, List.forall_mem_append] at htimes
    exact ih (h.note s hfirst.symm htimes.1) hrest htimes.2

/-- **The packets of one connection since a mark.** -/
theorem startsSince (h : FedSince mark before l) (hfed : before.Fed) {k : ConnectionId}
    {r : Reconstruction} (hr : l.traffic.get? k = some r) :
    ∃ opened, before.Holds k opened ∧
      StartsSince mark opened r (r.packetsSince ((before.positions.get? k).getD {})) := by
  obtain ⟨opened, feed, hopened, rfl, hsince⟩ := h.fed k r hr
  have hlater := (Later.refl mark opened).fed hsince
  have hstart : Since opened [] opened := .here rfl rfl
  have hreaches := (hstart.fed feed).reaches
  refine ⟨opened, hopened, ?_⟩
  rw [hopened.position]
  exact hlater.startsSince hreaches fun p => hopened.filled hfed

end FedSince

/-! ## What a report makes of them -/

/-- A row of the packets since positions has those of one connection. -/
theorem packetsSince_of_mem {positions : Table ConnectionId Position}
    {row : ConnectionId × List Packet} (hrow : row ∈ (l.trafficSince positions).rows) :
    ∃ r, l.traffic.get? row.1 = some r ∧
      row.2 = r.packetsSince ((positions.get? row.1).getD {}) := by
  have hget := Table.get?_of_mem_rows hrow
  rw [trafficSince, Table.get?_filterMap trafficSince_congr] at hget
  obtain ⟨r, hr, hpackets⟩ := Option.bind_eq_some_iff.1 hget
  by_cases hempty : (r.packetsSince ((positions.get? row.1).getD {})).isEmpty = true
  · simp [hempty] at hpackets
  · rw [if_neg hempty, Option.some.injEq] at hpackets
    exact ⟨r, hr, hpackets.symm⟩

/-- A packet of a connection since positions stands in a row. -/
theorem exists_row {positions : Table ConnectionId Position} {k : ConnectionId}
    {r : Reconstruction} {q : Packet} (hr : l.traffic.get? k = some r)
    (hq : q ∈ r.packetsSince ((positions.get? k).getD {})) :
    ∃ row ∈ (l.trafficSince positions).rows, (row.1 == k) = true ∧ q ∈ row.2 := by
  have hempty : ¬ (r.packetsSince ((positions.get? k).getD {})).isEmpty = true := by
    rw [List.isEmpty_iff]
    exact List.ne_nil_of_mem hq
  have hget : (l.trafficSince positions).get? k =
      some (r.packetsSince ((positions.get? k).getD {})) := by
    rw [trafficSince, Table.get?_filterMap trafficSince_congr, hr]
    exact if_neg hempty
  obtain ⟨k', hkey, hrow⟩ := Table.get?_eq_some_iff.1 hget
  exact ⟨_, hrow, hkey, hq⟩

/-- A packet that was open and has more bytes now, of a connection and a thread that are asked
for. -/
def ResumedFor (before l : Ledger) (scope : Scope) (creator : Thread) (matcher : AddressMatcher)
    (p : Packet) : Prop :=
  ∃ k, before.Resumed l k p ∧ matcher.accepts k.address = true ∧
    scope.selects p.thread creator = true

/-- **When the packets of a report began.**  Each ended after the mark, and began after it or with a
packet that goes on; and the first packets of the groups are no later than any that goes on. -/
structure ReportStarts (mark : UInt64) (before l : Ledger) (scope : Scope) (creator : Thread)
    (matcher : AddressMatcher) (report : List (GroupKey × List Packet)) : Prop where
  last : ∀ g ∈ report, ∀ p ∈ g.2, mark ≤ p.last
  start : ∀ g ∈ report, ∀ p ∈ g.2, mark ≤ p.start ∨
    ∃ q, before.ResumedFor l scope creator matcher q ∧ p.start = q.start
  resumed : ∀ q, before.ResumedFor l scope creator matcher q →
    ∃ g ∈ report, ∃ p ∈ g.2, p.start ≤ q.start

/-- Sorting and merging hide no start that is too early and make none. -/
theorem FedSince.reportStarts (h : FedSince mark before l) (hfed : before.Fed) (scope : Scope)
    (creator : Thread) (matcher : AddressMatcher) (grouping : Grouping) (threshold : UInt64) :
    ReportStarts mark before l scope creator matcher
      (Traffic.group scope creator matcher grouping threshold
        (l.trafficSince before.positions)) := by
  have hconserves := Traffic.group_conserves scope creator matcher grouping threshold
    (l.trafficSince before.positions)
  -- what is known of a member is known of the packet that it is made of
  have hmember : ∀ key, ∀ q ∈ Traffic.members scope creator matcher grouping
      (l.trafficSince before.positions) key,
      mark ≤ q.last ∧ (mark ≤ q.start ∨
        ∃ p, before.ResumedFor l scope creator matcher p ∧ q.start = p.start) := by
    intro key q hq
    obtain ⟨row, hrow, p, hp, haccepts, hselects, -, rfl⟩ :=
      (Traffic.mem_members scope creator matcher grouping).1 hq
    obtain ⟨r, hr, hpackets⟩ := packetsSince_of_mem hrow
    obtain ⟨opened, hopened, hstarts⟩ := h.startsSince hfed hr
    rw [hpackets] at hp
    rw [Grouping.start_erase, Grouping.last_erase]
    refine ⟨hstarts.last p hp, (hstarts.start p hp).imp_right ?_⟩
    rintro ⟨first, hgrew, hstart, hthread⟩
    rw [hthread] at hselects
    exact ⟨first, ⟨row.1, (hopened.resumed_iff hr).2 hgrew, haccepts, hselects⟩, hstart⟩
  refine ⟨?_, ?_, ?_⟩
  · intro g hg p hp
    obtain ⟨q, hq, -, hlast⟩ := (hconserves.settled g hg).exists_member hp
    exact UInt64.le_trans (hmember g.1 q hq).1 hlast
  · intro g hg p hp
    obtain ⟨q, hq, hstart, -⟩ := (hconserves.settled g hg).exists_member hp
    rw [hstart]
    exact (hmember g.1 q hq).2
  · rintro first ⟨k, hresumed, haccepts, hselects⟩
    obtain ⟨r, hr⟩ := hresumed.kept
    obtain ⟨opened, hopened, hstarts⟩ := h.startsSince hfed hr
    obtain ⟨q, hq, hstart, hthread⟩ := hstarts.grew first ((hopened.resumed_iff hr).1 hresumed)
    obtain ⟨row, hrow, hkey, hmem⟩ := exists_row hr hq
    have haddress : row.1.address = k.address :=
      congrArg Prod.fst (ConnectionId.connection_congr hkey)
    rw [← haddress] at haccepts
    rw [← hthread] at hselects
    obtain ⟨g, hg, -, hplaced⟩ := hconserves.placed row hrow haccepts q hmem hselects
    obtain ⟨p, hp, hle⟩ := (hconserves.settled g hg).exists_start_le hplaced
    rw [Grouping.start_erase, hstart] at hle
    exact ⟨g, hg, p, hp, hle⟩

end Ledger

namespace Application

variable {σ : Type}

/-- **Packets in a window began in it, but for those that go on.**  Let an application begin without
packets, let a spy be opened or reset after some actions, and let others follow; let the ledger not
be cleared in the window, and the clock not run backwards in it.  Then whatever the scope, the
matcher and the grouping are, every packet of a report has its last bytes from the window.  It also
began in the window, or it shows the start of a packet that was open when the window began and has
more bytes now.  So all packets of a report began in the window exactly if none of the packets that
go on began before it. -/
theorem window_packets_start (a : Application σ) (before after : List (Action σ)) (s : Spy)
    (scope : Scope) (matcher : AddressMatcher) (grouping : Grouping)
    (hempty : a.tap.ledger.traffic = .empty) (hbegins : s.BeginsAt (a.run before).tap.ledger)
    (hclear : Action.clear ∉ after)
    (hclock : ((a.run before).tap.clock.read.1 :: (a.run before).readings after).Pairwise
      (· ≤ ·)) :
    let mark := (a.run before).tap.clock.read.1
    let opened := (a.run before).tap.ledger
    let now := (a.run (before ++ after)).tap.ledger
    let report := s.networkTraffic now scope matcher grouping
    Ledger.ReportStarts mark opened now scope s.creator matcher report ∧
      ((∀ g ∈ report, ∀ p ∈ g.2, mark ≤ p.start) ↔
        ∀ q, opened.ResumedFor now scope s.creator matcher q → mark ≤ q.start) := by
  intro mark opened now report
  have hfed : opened.Fed := by
    have hblank : a.tap.ledger.content.Fed := by
      intro k r hr
      rw [Ledger.content_traffic, hempty] at hr
      cases hr
    have hrun := hblank.noteAll a.tap.settings (a.happenings before)
    rw [← run_ledger] at hrun
    exact hrun
  have hsince : Ledger.FedSince mark opened now := by
    have hstart : Ledger.FedSince mark opened opened.content :=
      (Ledger.FedSince.refl mark opened).of_traffic (Ledger.content_traffic opened)
    have hrun := hstart.noteAll (a.run before).tap.settings
      ((a.run before).cleared_notMem hclear) (List.pairwise_cons.1 hclock).1
    rw [← run_ledger, ← run_append] at hrun
    exact hrun.of_traffic (Ledger.content_traffic now).symm
  have hreport : Ledger.ReportStarts mark opened now scope s.creator matcher report := by
    have hbaseline : s.baseline.traffic = opened.positions := by
      rw [hbegins.baseline]
      rfl
    have hgroup := hsince.reportStarts hfed scope s.creator matcher grouping now.threshold
    rw [← hbaseline] at hgroup
    exact hgroup
  refine ⟨hreport, ?_, ?_⟩
  · intro hall q hq
    obtain ⟨g, hg, p, hp, hle⟩ := hreport.resumed q hq
    exact UInt64.le_trans (hall g hg p hp) hle
  · intro hall g hg p hp
    rcases hreport.start g hg p hp with hlate | ⟨q, hq, hstart⟩
    · exact hlate
    · rw [hstart]
      exact hall q hq

/-- An application at a new tap whose clock stands still until it is moved. -/
def still : Application Unit := { tap := {}, outside := () }

/-- At time 100 a thread opens a stream and sends two bytes, and then it is time 200. -/
def sendEarly : List (Action Unit) :=
  [.clock fun c => c.set 100,
    .connect (α := Unit) (ε := String) ⟨⟨1, none⟩, "shop:1"⟩ ⟨"db", 5432⟩ fun s => (.ok (), s),
    .send (ε := String) ⟨⟨1, none⟩, "shop:2"⟩ 0 [97, 98] fun s => (.ok 2, s),
    .clock fun c => c.set 200]

/-- The thread sends two more from the same place. -/
def sendLate : List (Action Unit) :=
  [.send (ε := String) ⟨⟨1, none⟩, "shop:2"⟩ 0 [99, 100] fun s => (.ok 2, s)]

/-- So a packet goes on from before, which the theorem finds by the packets that are shown. -/
theorem window_packets_start_sendLate :
    let mark := (still.run sendEarly).tap.clock.read.1
    let opened := (still.run sendEarly).tap.ledger
    let now := (still.run (sendEarly ++ sendLate)).tap.ledger
    let report := (Spy.begin ⟨1, none⟩ opened).networkTraffic now .any {} {}
    Ledger.ReportStarts mark opened now .any ⟨1, none⟩ {} report ∧
      ∃ q, opened.ResumedFor now .any ⟨1, none⟩ {} q ∧ q.start < mark := by
  intro mark opened now report
  obtain ⟨hreport, hiff⟩ := window_packets_start still sendEarly sendLate
    (Spy.begin ⟨1, none⟩ opened) .any {} {} rfl (.begin ⟨1, none⟩) (by simp [sendLate])
    (by decide +kernel)
  refine ⟨hreport, ?_⟩
  have hearly : ¬ ∀ g ∈ report, ∀ p ∈ g.2, mark ≤ p.start := by decide +kernel
  have hresumed := mt hiff.2 hearly
  simp only [not_forall, UInt64.not_le] at hresumed
  obtain ⟨q, hq, hlt⟩ := hresumed
  exact ⟨q, hq, hlt⟩

/-- **A packet is shown that begins before the window does,** at time 100, though both bytes that it
has were sent at 200. -/
theorem packet_starts_before_window :
    let opened := still.run sendEarly
    let now := still.run (sendEarly ++ sendLate)
    let report := (Spy.begin ⟨1, none⟩ opened.tap.ledger).networkTraffic now.tap.ledger .any {} {}
    opened.tap.clock.read.1 = 200 ∧ opened.readings sendLate = [200, 200] ∧
      report.map (fun g => g.2.map fun p => (p.start, p.last, p.payload)) =
        [[(100, 200, [99, 100])]] := by
  decide +kernel

end Application

end Wiretap
