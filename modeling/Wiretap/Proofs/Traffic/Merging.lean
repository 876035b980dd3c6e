import Wiretap.Proofs.Traffic.Cutting
import Wiretap.Traffic.Grouping
/-!
# Sorting and merging the packets of a group

The packets of a group are put in the order of time, and then neighbours become one packet as long
as the second goes on where the first stopped.  Merging is **greedy**: what was merged so far is
compared with the next packet, so a packet that stands at the end is made of a run of packets, and
the runs are a `Cutting`.

There are two loops, for groups that keep threads apart and for groups that do not.  They differ in
one condition of `Packet.Mergeable`, and `joinFrom` is both of them (`merge_cons`).

* `joinFrom_runs` — the packets that come out are made of the runs of those that went in;
* `joinFrom_apart`, `joinFrom_of_apart` — no two neighbours that come out can be merged, and where
  none can, merging changes nothing;
* `settle_settled` — what becomes of the packets of a group.
-/

namespace Wiretap

namespace Packet

/-- Whether a packet can be put behind another.  Threads count only where they are kept apart. -/
def Mergeable (byThread : Bool) (threshold : UInt64) (p next : Packet) : Prop :=
  p.direction = next.direction ∧ p.trace = next.trace ∧
    (byThread = true → p.thread.id = next.thread.id) ∧
    next.start.toNat - p.last.toNat ≤ threshold.toNat

instance (byThread : Bool) (threshold : UInt64) (p next : Packet) :
    Decidable (Mergeable byThread threshold p next) :=
  inferInstanceAs (Decidable (_ ∧ _))

/-- Two packets as one. -/
def join (p next : Packet) : Packet :=
  { p with newestFirst := next.newestFirst ++ p.newestFirst, last := max p.last next.last }

/-- The bytes of the second packet come behind those of the first. -/
theorem payload_join (p next : Packet) : (p.join next).payload = p.payload ++ next.payload :=
  List.reverse_append

/-- Packets are combined, if they are mergeable, by joining them. -/
theorem combine_eq (p next : Packet) (threshold : UInt64) :
    p.combine next threshold =
      if Mergeable true threshold p next then some (p.join next) else none := by
  have hpause : flooredSub next.start p.last ≤ threshold ↔
      next.start.toNat - p.last.toNat ≤ threshold.toNat := by
    rw [UInt64.le_iff_toNat_le, toNat_flooredSub]
  have hiff : (p.trace = next.trace ∧
      p.continues next.direction next.thread next.start threshold = true) ↔
        Mergeable true threshold p next := by
    rw [continues, Bool.and_eq_true, Bool.and_eq_true, beq_iff_eq, Thread.beq_iff,
      decide_eq_true_eq, hpause, Mergeable]
    constructor
    · rintro ⟨htrace, ⟨hdirection, hthread⟩, hshort⟩
      exact ⟨hdirection, htrace, fun _ => hthread, hshort⟩
    · rintro ⟨hdirection, htrace, hthread, hshort⟩
      exact ⟨htrace, ⟨hdirection, hthread rfl⟩, hshort⟩
  unfold combine
  exact if_congr hiff rfl rfl

/-- A packet that is given the thread of the one before it is merged without regard to threads. -/
theorem combine_sameThread (p next : Packet) (threshold : UInt64) :
    p.combine { next with thread := p.thread } threshold =
      if Mergeable false threshold p next then some (p.join next) else none := by
  rw [combine_eq]
  refine if_congr ?_ rfl rfl
  constructor
  · rintro ⟨hdirection, htrace, -, hshort⟩
    exact ⟨hdirection, htrace, nofun, hshort⟩
  · rintro ⟨hdirection, htrace, -, hshort⟩
    exact ⟨hdirection, htrace, fun _ => rfl, hshort⟩

/-- Whether a packet does not go with a run of packets before it. -/
def parts (byThread : Bool) (threshold : UInt64) (run : List Packet) (next : Packet) : Prop :=
  (∃ first ∈ run.head?, first.direction ≠ next.direction ∨ first.trace ≠ next.trace ∨
      byThread = true ∧ first.thread.id ≠ next.thread.id) ∨
    ∀ p ∈ run, p.last.toNat + threshold.toNat < next.start.toNat

/-- **A packet made of a run of packets:** all their bytes in their order.  But for its bytes and
its last time it is the first of them. -/
structure MadeOf (run : List Packet) (p : Packet) : Prop where
  first : ∃ q ∈ run.head?, p = { q with newestFirst := p.newestFirst, last := p.last }
  alike : ∀ q ∈ run, q.direction = p.direction
  payload : p.payload = run.flatMap Packet.payload
  last : IsLatest Packet.last run p.last

namespace MadeOf

variable {run : List Packet} {p : Packet}

theorem self (p : Packet) : MadeOf [p] p := by
  refine ⟨⟨p, rfl, rfl⟩, ?_, (List.flatMap_singleton _ _).symm, .singleton p⟩
  intro q hq
  rw [List.mem_singleton.1 hq]

/-- A packet of a run is made of one more when that is joined to it. -/
theorem join (h : MadeOf run p) {next : Packet} (hdirection : p.direction = next.direction) :
    MadeOf (run ++ [next]) (p.join next) := by
  obtain ⟨⟨q, hq, hp⟩, halike, hpayload, hlast⟩ := h
  refine ⟨⟨q, ?_, ?_⟩, ?_, ?_, hlast.concat next⟩
  · rw [List.head?_append, Option.mem_def.1 hq, Option.some_or]
    rfl
  · rw [Packet.join, hp]
  · intro r hr
    rcases List.mem_append.1 hr with hr | hr
    · exact halike r hr
    · rw [List.mem_singleton.1 hr]
      exact hdirection.symm
  · rw [payload_join, hpayload, List.flatMap_append, List.flatMap_singleton]

/-- A packet made of a run has the bytes of the run in their order. -/
theorem flow (h : MadeOf run p) : p.flow = run.flatMap Packet.flow := by
  rw [Packet.flow, h.payload, List.map_flatMap]
  refine List.flatMap_congr fun q hq => ?_
  rw [Packet.flow, h.alike q hq]

/-- What was merged so far looks at the next packet as the rule looks at the run. -/
theorem mergeable_iff (h : MadeOf run p) (byThread : Bool) (threshold : UInt64) (next : Packet) :
    Mergeable byThread threshold p next ↔ ¬ parts byThread threshold run next := by
  obtain ⟨⟨q, hq, hp⟩, -, -, hlast⟩ := h
  have hpause := hlast.pause_iff next.start threshold
  rw [UInt64.le_iff_toNat_le, toNat_flooredSub] at hpause
  have hdirection : p.direction = q.direction := by rw [hp]
  have htrace : p.trace = q.trace := by rw [hp]
  have hthread : p.thread = q.thread := by rw [hp]
  rw [Mergeable, hdirection, htrace, hthread]
  constructor
  · rintro ⟨hd, ht, hs, hshort⟩ (⟨first, hfirst, hother⟩ | hlong)
    · obtain rfl : q = first := Option.mem_unique hq hfirst
      rcases hother with hother | hother | ⟨hby, hother⟩
      · exact hother hd
      · exact hother ht
      · exact hother (hs hby)
    · exact hpause.2 hlong hshort
  · intro hnot
    have hfirst : ¬ (q.direction ≠ next.direction ∨ q.trace ≠ next.trace ∨
        byThread = true ∧ q.thread.id ≠ next.thread.id) := fun hother => hnot (.inl ⟨q, hq, hother⟩)
    rw [not_or, not_or, not_not, not_not, not_and, not_not] at hfirst
    obtain ⟨hd, ht, hs⟩ := hfirst
    refine ⟨hd, ht, hs, ?_⟩
    by_contra hlong
    exact hnot (.inr (hpause.1 hlong))

end MadeOf

end Packet

namespace Traffic

/-- Merges every packet into the one before it where that can be done, beginning with `p`. -/
def joinFrom (byThread : Bool) (threshold : UInt64) (p : Packet) : List Packet → List Packet
  | [] => [p]
  | next :: rest =>
    if p.Mergeable byThread threshold next then joinFrom byThread threshold (p.join next) rest
    else p :: joinFrom byThread threshold next rest

/-- The loop for one thread joins packets of one thread. -/
theorem mergeFrom_eq (threshold : UInt64) (p : Packet) (rest : List Packet) :
    mergeFrom threshold p rest = joinFrom true threshold p rest := by
  induction rest generalizing p with
  | nil => rfl
  | cons next rest ih =>
    rw [mergeFrom, joinFrom, Packet.combine_eq]
    split_ifs
    · exact ih (p.join next)
    · exact congrArg (p :: ·) (ih next)

theorem mergeAnyThreadFrom_eq (threshold : UInt64) (p : Packet) (rest : List Packet) :
    mergeAnyThreadFrom threshold p rest = joinFrom false threshold p rest := by
  induction rest generalizing p with
  | nil => rfl
  | cons next rest ih =>
    rw [mergeAnyThreadFrom, joinFrom, Packet.combine_sameThread]
    split_ifs
    · exact ih (p.join next)
    · exact congrArg (p :: ·) (ih next)

/-- Merges neighbours as a grouping asks for it. -/
def merge (grouping : Grouping) (threshold : UInt64) (packets : List Packet) : List Packet :=
  if grouping.byThread then mergeAdjacent threshold packets
  else mergeAdjacentAnyThread threshold packets

theorem merge_nil (grouping : Grouping) (threshold : UInt64) :
    merge grouping threshold [] = [] := by
  unfold merge
  split <;> rfl

theorem merge_cons (grouping : Grouping) (threshold : UInt64) (p : Packet) (rest : List Packet) :
    merge grouping threshold (p :: rest) = joinFrom grouping.byThread threshold p rest := by
  unfold merge
  cases grouping.byThread with
  | true => exact mergeFrom_eq threshold p rest
  | false => exact mergeAnyThreadFrom_eq threshold p rest

section Join

variable {byThread : Bool} {threshold : UInt64}

open Packet

/-- **Merging is cutting into runs.**  By induction on the packets to come; `p` is made of the run
that is under way. -/
theorem joinFrom_runs {run : List Packet} {p : Packet} (hmade : MadeOf run p)
    (hunbroken : Unbroken (parts byThread threshold) run) (rest : List Packet) :
    ∃ runs, Cutting (parts byThread threshold) (run ++ rest) runs ∧
      List.Forall₂ MadeOf runs (joinFrom byThread threshold p rest) := by
  have hrun : run ≠ [] := by
    obtain ⟨q, hq, -⟩ := hmade.first
    rintro rfl
    cases hq
  induction rest generalizing run p with
  | nil =>
    rw [List.append_nil]
    exact ⟨[run], .one hrun hunbroken, .cons hmade .nil⟩
  | cons next rest ih =>
    have hiff := hmade.mergeable_iff byThread threshold next
    rw [joinFrom]
    by_cases hmergeable : p.Mergeable byThread threshold next
    · rw [if_pos hmergeable]
      have hnext := ih (hmade.join hmergeable.1) (hunbroken.concat (hiff.1 hmergeable))
        (List.append_ne_nil_of_left_ne_nil hrun [next])
      rw [List.append_assoc] at hnext
      exact hnext
    · rw [if_neg hmergeable]
      obtain ⟨runs, hcutting, hpackets⟩ :=
        ih (.self next) (.singleton next) (List.cons_ne_nil next [])
      have hparts : parts byThread threshold run next := by
        by_contra hnot
        exact hmergeable (hiff.2 hnot)
      exact ⟨run :: runs, .cons hrun hunbroken hparts hcutting, .cons hmade hpackets⟩

/-- The first packet that comes out is the first that went in, but for its bytes and its last
time. -/
theorem joinFrom_first (byThread : Bool) (threshold : UInt64) (p : Packet) (rest : List Packet) :
    ∃ q others, joinFrom byThread threshold p rest = q :: others ∧
      q = { p with newestFirst := q.newestFirst, last := q.last } := by
  induction rest generalizing p with
  | nil => exact ⟨p, [], rfl, rfl⟩
  | cons next rest ih =>
    rw [joinFrom]
    split
    · exact ih (p.join next)
    · exact ⟨p, _, rfl, rfl⟩

/-- No two neighbours that come out can be merged. -/
theorem joinFrom_apart (p : Packet) (rest : List Packet) :
    (joinFrom byThread threshold p rest).IsChain fun p next =>
      ¬ p.Mergeable byThread threshold next := by
  induction rest generalizing p with
  | nil => exact List.isChain_singleton p
  | cons next rest ih =>
    rw [joinFrom]
    split
    · exact ih (p.join next)
    · rename_i hnot
      refine List.isChain_cons.2 ⟨?_, ih next⟩
      intro q hq
      obtain ⟨first, others, hout, hfirst⟩ := joinFrom_first byThread threshold next rest
      rw [hout, List.head?_cons, Option.mem_some_iff] at hq
      subst hq
      -- Of the next packet only what it has from its first part is looked at.
      rw [hfirst]
      exact hnot

/-- Where no two neighbours can be merged, merging changes nothing. -/
theorem joinFrom_of_apart {p : Packet} {rest : List Packet}
    (h : (p :: rest).IsChain fun p next => ¬ p.Mergeable byThread threshold next) :
    joinFrom byThread threshold p rest = p :: rest := by
  induction rest generalizing p with
  | nil => rfl
  | cons next rest ih =>
    obtain ⟨hfirst, hrest⟩ := List.isChain_cons_cons.1 h
    rw [joinFrom, if_neg hfirst, ih hrest]

/-- Joined packets have times of those that they are joined from, in their order. -/
theorem start_joinFrom (p : Packet) (rest : List Packet) :
    ((joinFrom byThread threshold p rest).map Packet.start).Sublist
      ((p :: rest).map Packet.start) := by
  induction rest generalizing p with
  | nil => exact List.Sublist.refl _
  | cons next rest ih =>
    rw [joinFrom]
    split
    · refine (ih (p.join next)).trans ?_
      exact (List.sublist_cons_self _ _).cons_cons p.start
    · exact (ih next).cons_cons p.start

end Join

/-- Packets **in time**: sorted by when they began, those of one time in the order they had. -/
structure InTime (packets timely : List Packet) : Prop where
  perm : timely.Perm packets
  sorted : timely.Pairwise fun a b => a.start ≤ b.start
  stable : ∀ time, (timely.filter fun p => p.start = time) = packets.filter fun p => p.start = time

/-- Sorting puts packets in time. -/
theorem inTime_mergeSort (packets : List Packet) :
    InTime packets (packets.mergeSort fun a b => a.start ≤ b.start) := by
  have htrans : ∀ a b c : Packet, decide (a.start ≤ b.start) = true →
      decide (b.start ≤ c.start) = true → decide (a.start ≤ c.start) = true := by
    intro a b c hab hbc
    exact decide_eq_true (UInt64.le_trans (of_decide_eq_true hab) (of_decide_eq_true hbc))
  have htotal : ∀ a b : Packet,
      (decide (a.start ≤ b.start) || decide (b.start ≤ a.start)) = true := by
    intro a b
    rw [Bool.or_eq_true, decide_eq_true_eq, decide_eq_true_eq]
    exact UInt64.le_total a.start b.start
  have hperm := List.mergeSort_perm packets fun a b => decide (a.start ≤ b.start)
  refine ⟨hperm, ?_, ?_⟩
  · exact (List.pairwise_mergeSort htrans htotal packets).imp of_decide_eq_true
  · intro time
    have hone : (packets.filter fun p => p.start = time).Pairwise
        fun a b => decide (a.start ≤ b.start) = true := by
      refine List.pairwise_of_forall_mem_list fun a ha b hb => ?_
      have hastart := of_decide_eq_true (List.mem_filter.1 ha).2
      have hbstart := of_decide_eq_true (List.mem_filter.1 hb).2
      rw [hastart, hbstart]
      exact decide_eq_true (UInt64.le_refl time)
    have hsublist := List.sublist_mergeSort htrans htotal hone List.filter_sublist
    have hkept := hsublist.filter fun p => decide (p.start = time)
    simp only [List.filter_filter, Bool.and_self] at hkept
    exact (hkept.eq_of_length (hperm.filter _).length_eq.symm).symm

/-- Packets that stand in the order of time stay as they are when they are put in time. -/
theorem mergeSort_of_sorted {packets : List Packet}
    (h : packets.Pairwise fun a b => a.start ≤ b.start) :
    (packets.mergeSort fun a b => a.start ≤ b.start) = packets :=
  List.mergeSort_of_pairwise (h.imp fun hab => decide_eq_true hab)

/-- **What becomes of the packets of a group.**  They are put in time and cut into runs by the rule,
and each run becomes one packet.  The bytes are those of the packets in time.  What comes out is in
time again, no two neighbours can be merged, and nothing changes when they are merged or settled
once more. -/
structure Settled (grouping : Grouping) (threshold : UInt64) (members packets : List Packet) :
    Prop where
  merged : ∃ timely runs, InTime members timely ∧
    Cutting (Packet.parts grouping.byThread threshold) timely runs ∧
    List.Forall₂ Packet.MadeOf runs packets ∧
    packets.flatMap Packet.flow = timely.flatMap Packet.flow
  sorted : packets.Pairwise fun a b => a.start ≤ b.start
  apart : packets.IsChain fun p next => ¬ p.Mergeable grouping.byThread threshold next
  again : merge grouping threshold packets = packets ∧ settle grouping threshold packets = packets

/-- Packets made of runs have the bytes of the runs in their order. -/
theorem flow_of_madeOf {runs : List (List Packet)} {packets : List Packet}
    (h : List.Forall₂ Packet.MadeOf runs packets) :
    packets.flatMap Packet.flow = runs.flatten.flatMap Packet.flow := by
  induction h with
  | nil => rfl
  | cons hmade _ ih =>
    rw [List.flatMap_cons, List.flatten_cons, List.flatMap_append, hmade.flow, ih]

/-- To settle packets is to sort them and to merge them. -/
theorem settle_eq (grouping : Grouping) (threshold : UInt64) (packets : List Packet) :
    settle grouping threshold packets =
      merge grouping threshold (packets.mergeSort fun a b => a.start ≤ b.start) := rfl

/-- Merging cuts packets into runs and makes one packet of each. -/
theorem merge_runs (grouping : Grouping) (threshold : UInt64) (packets : List Packet) :
    ∃ runs, Cutting (Packet.parts grouping.byThread threshold) packets runs ∧
      List.Forall₂ Packet.MadeOf runs (merge grouping threshold packets) := by
  cases packets with
  | nil =>
    rw [merge_nil]
    exact ⟨[], .nil, .nil⟩
  | cons p rest =>
    rw [merge_cons]
    exact joinFrom_runs (.self p) (.singleton p) rest

/-- Merging keeps all bytes in order. -/
theorem flow_merge (grouping : Grouping) (threshold : UInt64) (packets : List Packet) :
    (merge grouping threshold packets).flatMap Packet.flow = packets.flatMap Packet.flow := by
  obtain ⟨runs, hcutting, hmade⟩ := merge_runs grouping threshold packets
  rw [flow_of_madeOf hmade, hcutting.flatten]

/-- Packets that are merged stand apart. -/
theorem merge_apart (grouping : Grouping) (threshold : UInt64) (packets : List Packet) :
    (merge grouping threshold packets).IsChain fun p next =>
      ¬ p.Mergeable grouping.byThread threshold next := by
  cases packets with
  | nil =>
    rw [merge_nil]
    exact .nil
  | cons p rest =>
    rw [merge_cons]
    exact joinFrom_apart p rest

/-- Packets that stand apart are merged as they are. -/
theorem merge_of_apart {grouping : Grouping} {threshold : UInt64} {packets : List Packet}
    (h : packets.IsChain fun p next => ¬ p.Mergeable grouping.byThread threshold next) :
    merge grouping threshold packets = packets := by
  cases packets with
  | nil => exact merge_nil grouping threshold
  | cons p rest =>
    rw [merge_cons]
    exact joinFrom_of_apart h

/-- Merged packets have times of those that they are merged from, in their order. -/
theorem start_merge (grouping : Grouping) (threshold : UInt64) (packets : List Packet) :
    ((merge grouping threshold packets).map Packet.start).Sublist (packets.map Packet.start) := by
  cases packets with
  | nil => rw [merge_nil]
  | cons p rest =>
    rw [merge_cons]
    exact start_joinFrom p rest

theorem settle_settled (grouping : Grouping) (threshold : UInt64) (members : List Packet) :
    Settled grouping threshold members (settle grouping threshold members) := by
  have htimely := inTime_mergeSort members
  rw [settle_eq]
  generalize (members.mergeSort fun a b => a.start ≤ b.start) = timely at htimely
  obtain ⟨runs, hcutting, hmade⟩ := merge_runs grouping threshold timely
  have hapart := merge_apart grouping threshold timely
  have hsorted : (merge grouping threshold timely).Pairwise fun a b => a.start ≤ b.start := by
    refine List.pairwise_map.1 ?_
    exact (List.pairwise_map.2 htimely.sorted).sublist (start_merge grouping threshold timely)
  have hflow := flow_merge grouping threshold timely
  refine ⟨⟨timely, runs, htimely, hcutting, hmade, hflow⟩, hsorted, hapart,
    merge_of_apart hapart, ?_⟩
  rw [settle_eq, mergeSort_of_sorted hsorted]
  exact merge_of_apart hapart

/-- Every packet is made of a run, and of every run there is a packet. -/
theorem exists_madeOf {runs : List (List Packet)} {packets : List Packet}
    (h : List.Forall₂ Packet.MadeOf runs packets) :
    (∀ p ∈ packets, ∃ run ∈ runs, p.MadeOf run) ∧ ∀ run ∈ runs, ∃ p ∈ packets, p.MadeOf run := by
  induction h with
  | nil => exact ⟨by simp, by simp⟩
  | cons hmade _ ih =>
    obtain ⟨hpackets, hruns⟩ := ih
    constructor
    · intro p hp
      rcases List.mem_cons.1 hp with rfl | hp
      · exact ⟨_, List.mem_cons_self, hmade⟩
      · obtain ⟨run, hrun, hof⟩ := hpackets p hp
        exact ⟨run, List.mem_cons_of_mem _ hrun, hof⟩
    · intro run hrun
      rcases List.mem_cons.1 hrun with rfl | hrun
      · exact ⟨_, List.mem_cons_self, hmade⟩
      · obtain ⟨p, hp, hof⟩ := hruns run hrun
        exact ⟨p, List.mem_cons_of_mem _ hp, hof⟩

namespace Settled

variable {grouping : Grouping} {threshold : UInt64} {members packets : List Packet}

/-- A packet of a group began with one of the members, and ended with it or later. -/
theorem exists_member (h : Settled grouping threshold members packets) {p : Packet}
    (hp : p ∈ packets) : ∃ q ∈ members, p.start = q.start ∧ q.last ≤ p.last := by
  obtain ⟨⟨timely, runs, htimely, hcutting, hmade, -⟩, -, -, -⟩ := h
  obtain ⟨run, hrun, ⟨q, hq, hfirst⟩, -, -, hlast⟩ := (exists_madeOf hmade).1 p hp
  have hmem : q ∈ run := List.mem_of_mem_head? hq
  have hstart : p.start = q.start := by rw [hfirst]
  refine ⟨q, htimely.perm.mem_iff.1 ?_, hstart, hlast.bound q hmem⟩
  rw [← hcutting.flatten]
  exact List.mem_flatten_of_mem hrun hmem

/-- No member began before all packets of the group did: the run that it belongs to begins with the
earliest. -/
theorem exists_start_le (h : Settled grouping threshold members packets) {q : Packet}
    (hq : q ∈ members) : ∃ p ∈ packets, p.start ≤ q.start := by
  obtain ⟨⟨timely, runs, htimely, hcutting, hmade, -⟩, -, -, -⟩ := h
  have hmem := htimely.perm.mem_iff.2 hq
  have hsorted := htimely.sorted
  rw [← hcutting.flatten] at hmem hsorted
  obtain ⟨run, hrun, hqrun⟩ := List.mem_flatten.1 hmem
  obtain ⟨p, hp, ⟨first, hhead, hfirst⟩, -, -, -⟩ := (exists_madeOf hmade).2 run hrun
  have hstart : p.start = first.start := by rw [hfirst]
  refine ⟨p, hp, ?_⟩
  rw [hstart]
  cases run with
  | nil => cases hqrun
  | cons r rest =>
    rw [List.head?_cons, Option.mem_some_iff] at hhead
    subst hhead
    have hrunSorted := (List.pairwise_flatten.1 hsorted).1 _ hrun
    rcases List.mem_cons.1 hqrun with rfl | hlater
    · exact UInt64.le_refl _
    · exact (List.pairwise_cons.1 hrunSorted).1 q hlater

end Settled

end Traffic

end Wiretap
