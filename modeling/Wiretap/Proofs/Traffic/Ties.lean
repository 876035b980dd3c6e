import Wiretap.Proofs.Traffic.Report
/-!
# The order in which connections are given to a report

The packets of one connection stand in the order in which they came, but the connections
themselves have no order; a report takes them as they are given.  Two things in it go back to that
alone, and both are ties.

* Where packets of different connections in one group began at one time, it says which of them comes
  first.
* Where groups are equal in address, ordinal and first time, it says which of them comes first.

**Given the same connections in another order, a report has the same groups,** and each is merged
from the same packets in time, up to the first kind of tie; they stand in the same order, up to the
second kind (`AgreeButTies`).

A list that is put in time is determined by what is put in time (`InTime.unique`), and the packets
of one connection are put in time by themselves (`InTime.filter`), so along each connection nothing
is left open.  Groups have different keys, so each of one report is found in the other by its key,
and then it stands in the same place (`place`), which is all that reports are ordered by.
-/

namespace Wiretap.Traffic

/-- Of the same packets sorted in two ways, the first has the earliest time in both. -/
theorem start_le_of_perm {a b : Packet} {rest rest' : List Packet}
    (hsorted : (a :: rest).Pairwise fun p q => p.start ≤ q.start)
    (hperm : (a :: rest).Perm (b :: rest')) : a.start ≤ b.start := by
  rcases List.mem_cons.1 (hperm.mem_iff.2 List.mem_cons_self) with hab | hb
  · rw [hab]
    exact UInt64.le_refl _
  · exact (List.pairwise_cons.1 hsorted).1 b hb

namespace InTime

variable {packets timely timely' : List Packet}

/-- The packets of which something holds are put in time by themselves. -/
theorem filter (h : InTime packets timely) (keep : Packet → Bool) :
    InTime (packets.filter keep) (timely.filter keep) := by
  obtain ⟨hperm, hsorted, hstable⟩ := h
  refine ⟨hperm.filter keep, hsorted.filter keep, ?_⟩
  intro time
  have hcomm : ∀ l : List Packet, (l.filter keep).filter (fun p => p.start = time) =
      (l.filter fun p => p.start = time).filter keep := by
    intro l
    rw [List.filter_filter, List.filter_filter]
    exact List.filter_congr fun p _ => Bool.and_comm _ _
  rw [hcomm, hcomm, hstable]

/-- **There is one way to put packets in time.**  By induction on the list: the first packet has
the earliest time, and is the first of those that have it. -/
theorem unique (h : InTime packets timely) (h' : InTime packets timely') : timely = timely' := by
  obtain ⟨hperm, hsorted, hstable⟩ := h
  obtain ⟨hperm', hsorted', hstable'⟩ := h'
  have hboth : timely.Perm timely' := hperm.trans hperm'.symm
  have hsame : ∀ time, (timely.filter fun p => p.start = time) =
      timely'.filter fun p => p.start = time := by
    intro time
    rw [hstable, hstable']
  clear hperm hperm' hstable hstable'
  induction timely generalizing timely' with
  | nil => exact hboth.nil_eq
  | cons a rest ih =>
    cases timely' with
    | nil => exact absurd hboth.symm.nil_eq (by simp)
    | cons b rest' =>
      have hstart : b.start = a.start :=
        UInt64.le_antisymm (start_le_of_perm hsorted' hboth.symm) (start_le_of_perm hsorted hboth)
      have hfirst := hsame a.start
      rw [List.filter_cons_of_pos (by simp), List.filter_cons_of_pos (by simp [hstart]),
        List.cons.injEq] at hfirst
      obtain ⟨rfl, -⟩ := hfirst
      have hrest := (List.pairwise_cons.1 hsorted).2
      have hrest' := (List.pairwise_cons.1 hsorted').2
      refine congrArg (a :: ·) (ih hrest hrest' (List.Perm.cons_inv hboth) fun time => ?_)
      have htime := hsame time
      rw [List.filter_cons, List.filter_cons] at htime
      split at htime
      · exact (List.cons.inj htime).2
      · exact htime

end InTime

/-- **The same up to ties:** the same packets in time, which differ at most in the order among
packets of one time and different connections. -/
structure SameButTies (timely timely' : List Packet) : Prop where
  perm : timely.Perm timely'
  sorted : timely.Pairwise fun a b => a.start ≤ b.start
  sorted' : timely'.Pairwise fun a b => a.start ≤ b.start
  along : ∀ c : ConnectionId,
    (timely.filter fun p => p.connection == c) = timely'.filter fun p => p.connection == c

/-- Two groups **show the same** if they have one key and are merged from packets that are the same
up to ties. -/
def ShowSame (grouping : Grouping) (threshold : UInt64) (g h : GroupKey × List Packet) : Prop :=
  (g.1 == h.1) = true ∧ ∃ timely timely', SameButTies timely timely' ∧
    g.2 = merge grouping threshold timely ∧ h.2 = merge grouping threshold timely'

/-- The place of a group in a report: its address, its ordinal and its first time. -/
def place (g : GroupKey × List Packet) : Address × Option UInt32 × UInt64 :=
  (g.1.address, g.1.ordinal, firstStart g.2)

/-- Reports **agree up to ties** if they go through the same places and have groups that show the
same.  Each group of the one is found in the other, in the same place, but groups of one place may
stand in another order there. -/
structure AgreeButTies (grouping : Grouping) (threshold : UInt64)
    (groups groups' : List (GroupKey × List Packet)) : Prop where
  places : groups.map place = groups'.map place
  groups : ∃ moved, moved.Perm groups' ∧ List.Forall₂ (ShowSame grouping threshold) groups moved

/-- Packets under the identity of their connection. -/
def Labelled (traffic : Table ConnectionId (List Packet)) : Prop :=
  ∀ row ∈ traffic.rows, ∀ p ∈ row.2, (p.connection == row.1) = true

/-- Merged packets begin when the packets do. -/
theorem firstStart_merge (grouping : Grouping) (threshold : UInt64) (packets : List Packet) :
    firstStart (merge grouping threshold packets) = firstStart packets := by
  cases packets with
  | nil => rw [merge_nil]
  | cons p rest =>
    rw [merge_cons]
    obtain ⟨q, others, hout, hfirst⟩ := joinFrom_first grouping.byThread threshold p rest
    rw [hout]
    show q.start = p.start
    rw [hfirst]

/-- Packets that are the same up to ties begin at the same time. -/
theorem SameButTies.firstStart_eq {timely timely' : List Packet}
    (h : SameButTies timely timely') : firstStart timely = firstStart timely' := by
  obtain ⟨hperm, hsorted, hsorted', -⟩ := h
  cases timely with
  | nil => rw [hperm.nil_eq]
  | cons a rest =>
    cases timely' with
    | nil => exact absurd hperm.symm.nil_eq (by simp)
    | cons b rest' =>
      exact UInt64.le_antisymm (start_le_of_perm hsorted hperm)
        (start_le_of_perm hsorted' hperm.symm)

/-- Packets that are the same along each connection are the same up to ties when they are put in
time. -/
theorem InTime.sameButTies {packets packets' timely timely' : List Packet}
    (h : InTime packets timely) (h' : InTime packets' timely') (hperm : packets.Perm packets')
    (halong : ∀ c : ConnectionId, (packets.filter fun p => p.connection == c) =
      packets'.filter fun p => p.connection == c) : SameButTies timely timely' := by
  refine ⟨h.perm.trans (hperm.trans h'.perm.symm), h.sorted, h'.sorted, ?_⟩
  intro c
  have hfilter := h.filter fun p => p.connection == c
  rw [halong c] at hfilter
  exact hfilter.unique (h'.filter fun p => p.connection == c)

/-! ## The members of a group -/

/-- Of rows with different keys at most one has the key that is asked for, so it does not matter in
which order they come. -/
theorem flatMap_of_perm {β : Type} {rows rows' : List (ConnectionId × List Packet)}
    (hperm : rows.Perm rows') (hdistinct : rows.Pairwise fun a b => (a.1 == b.1) = false)
    {f : ConnectionId × List Packet → List β} (c : ConnectionId)
    (hf : ∀ row ∈ rows, (row.1 == c) = false → f row = []) :
    rows.flatMap f = rows'.flatMap f := by
  induction hperm with
  | nil => rfl
  | cons row _ ih =>
    obtain ⟨-, hrest⟩ := List.pairwise_cons.1 hdistinct
    rw [List.flatMap_cons, List.flatMap_cons,
      ih hrest fun other hother => hf other (List.mem_cons_of_mem _ hother)]
  | swap row other rest =>
    have hne : (other.1 == row.1) = false :=
      (List.pairwise_cons.1 hdistinct).1 row List.mem_cons_self
    have hone : f other = [] ∨ f row = [] := by
      by_cases hother : (other.1 == c) = true
      · refine .inr (hf row (List.mem_cons_of_mem _ List.mem_cons_self) ?_)
        rw [← BEq.congr_right hother, BEq.comm]
        exact hne
      · exact .inl (hf other List.mem_cons_self (Bool.eq_false_iff.2 hother))
    simp only [List.flatMap_cons]
    rcases hone with hnone | hnone <;> rw [hnone] <;> simp
  | trans hfirst _ ih ih' =>
    rw [ih hdistinct hf]
    exact ih' (Table.distinct_of_perm hfirst hdistinct) fun row hrow =>
      hf row (hfirst.mem_iff.2 hrow)

section Report

variable (scope : Scope) (creator : Thread) (matcher : AddressMatcher) (grouping : Grouping)
  {traffic traffic' : Table ConnectionId (List Packet)}

/-- The members of a group do not depend on the order, but for their own. -/
theorem members_perm (hperm : traffic.rows.Perm traffic'.rows) (key : GroupKey) :
    (members scope creator matcher grouping traffic key).Perm
      (members scope creator matcher grouping traffic' key) :=
  hperm.flatMap_right _

/-- Along a connection the members of a group are packets of one row. -/
theorem members_along (hlabelled : Labelled traffic) (hperm : traffic.rows.Perm traffic'.rows)
    (key : GroupKey) (c : ConnectionId) :
    ((members scope creator matcher grouping traffic key).filter fun p => p.connection == c) =
      (members scope creator matcher grouping traffic' key).filter fun p => p.connection == c := by
  rw [members, members, List.filter_flatMap, List.filter_flatMap]
  refine flatMap_of_perm hperm traffic.distinct c fun row hrow hother => ?_
  refine List.filter_eq_nil_iff.2 fun q hq hqc => ?_
  obtain ⟨p, hp, rfl⟩ := List.mem_map.1 hq
  have herase : (grouping.erase p).connection = p.connection := by
    unfold Grouping.erase
    split <;> rfl
  have hlabel := hlabelled row hrow p (List.mem_filter.1 hp).1
  rw [herase, BEq.congr_left hlabel, hother] at hqc
  cases hqc

/-- Equal keys have the same members. -/
theorem members_congr {key key' : GroupKey} (h : (key == key') = true) :
    members scope creator matcher grouping traffic key =
      members scope creator matcher grouping traffic key' := by
  unfold members
  have hsame : ∀ k : GroupKey, (k == key) = (k == key') := fun k => BEq.congr_right h
  simp only [hsame]

/-! ## Groups in their places -/

/-- The order of groups looks at their places only. -/
def placeOrder (r s : Address × Option UInt32 × UInt64) : Ordering :=
  (r.1.order s.1).then <| (compare r.2.1 s.2.1).then (compare r.2.2 s.2.2)

/-- Places of which neither is behind the other are one place. -/
theorem place_eq_of_order {g h : GroupKey × List Packet} (hgh : (order g h).isLE = true)
    (hhg : (order h g).isLE = true) : place g = place h := by
  have hequal : order g h = .eq := Std.OrientedCmp.isLE_antisymm hgh hhg
  obtain ⟨haddress, hrest⟩ := Ordering.then_eq_eq.1 hequal
  obtain ⟨hordinal, hstart⟩ := Ordering.then_eq_eq.1 hrest
  rw [place, place, Address.eq_of_order haddress, Std.LawfulEqOrd.eq_of_compare hordinal,
    Std.LawfulEqOrd.eq_of_compare hstart]

/-- Groups that show the same have one place. -/
theorem ShowSame.place_eq {threshold : UInt64} {g h : GroupKey × List Packet}
    (hsame : ShowSame grouping threshold g h) : place g = place h := by
  obtain ⟨hkey, timely, timely', hties, hfirst, hsecond⟩ := hsame
  have hkeys := GroupKey.beq_iff.1 hkey
  simp only [GroupKey.key, Prod.mk.injEq] at hkeys
  rw [place, place, hkeys.1, hkeys.2.1, hfirst, hsecond, firstStart_merge, firstStart_merge,
    hties.firstStart_eq]

section Reordered

variable (hlabelled : Labelled traffic) (hperm : traffic.rows.Perm traffic'.rows)
  (threshold : UInt64)

include hlabelled hperm in
/-- Two groups with one key show the same. -/
theorem showSame_of_same_key {g h : GroupKey × List Packet} (hkey : (g.1 == h.1) = true)
    (hg : g ∈ group scope creator matcher grouping threshold traffic)
    (hh : h ∈ group scope creator matcher grouping threshold traffic') :
    ShowSame grouping threshold g h := by
  have hfirst := settle_of_mem_group scope creator matcher grouping threshold traffic hg
  have hsecond := settle_of_mem_group scope creator matcher grouping threshold traffic' hh
  rw [← members_congr scope creator matcher grouping hkey] at hsecond
  refine ⟨hkey, _, _, ?_, hfirst, hsecond⟩
  exact (inTime_mergeSort _).sameButTies (inTime_mergeSort _)
    (members_perm scope creator matcher grouping hperm g.1)
    (members_along scope creator matcher grouping hlabelled hperm g.1)

include hperm in
/-- Every key of one report is a key of the other, for a group has members or it is not there. -/
theorem mem_keys_of_perm {key : Address × Option UInt32 × Option Nat × Option String}
    (hkey : key ∈ (group scope creator matcher grouping threshold traffic).map (·.1.key)) :
    key ∈ (group scope creator matcher grouping threshold traffic').map (·.1.key) := by
  obtain ⟨g, hg, rfl⟩ := List.mem_map.1 hkey
  have hmembers : members scope creator matcher grouping traffic g.1 ≠ [] :=
    (exists_group_iff scope creator matcher grouping threshold traffic g.1).1 ⟨g, hg, BEq.rfl⟩
  have hmembers' : members scope creator matcher grouping traffic' g.1 ≠ [] := by
    intro hnone
    have hsame := members_perm scope creator matcher grouping hperm g.1
    rw [hnone] at hsame
    exact hmembers hsame.eq_nil
  obtain ⟨h, hh, hsame⟩ :=
    (exists_group_iff scope creator matcher grouping threshold traffic' g.1).2 hmembers'
  exact List.mem_map.2 ⟨h, hh, GroupKey.beq_iff.1 hsame⟩

end Reordered

/-- The packets of a connection are under its identity, whatever the order of the connections. -/
theorem Labelled.of_perm (h : Labelled traffic) (hperm : traffic.rows.Perm traffic'.rows) :
    Labelled traffic' := fun row hrow => h row (hperm.mem_iff.2 hrow)

/-- No two groups of a report have the same key. -/
theorem nodup_keys (threshold : UInt64) (traffic : Table ConnectionId (List Packet)) :
    ((group scope creator matcher grouping threshold traffic).map (·.1.key)).Nodup := by
  have hdistinct := group_distinct scope creator matcher grouping threshold traffic
  refine List.pairwise_map.2 (hdistinct.imp fun {g h} hdiffer hkey => ?_)
  have hsame : (g.1 == h.1) = true := GroupKey.beq_iff.2 hkey
  rw [hdiffer] at hsame
  cases hsame

/-- **The order of the connections does not show, but for ties.**  Both reports have groups for the
same keys, so the groups of one can be put beside those of the other that show the same.  These have
the same places, and both reports stand in the order of their places. -/
theorem group_of_perm (hlabelled : Labelled traffic) (hperm : traffic.rows.Perm traffic'.rows)
    (threshold : UInt64) :
    AgreeButTies grouping threshold (group scope creator matcher grouping threshold traffic)
      (group scope creator matcher grouping threshold traffic') := by
  have hkeys := (List.perm_ext_iff_of_nodup
    (nodup_keys scope creator matcher grouping threshold traffic)
    (nodup_keys scope creator matcher grouping threshold traffic')).2 fun key =>
      ⟨mem_keys_of_perm scope creator matcher grouping hperm threshold,
        mem_keys_of_perm scope creator matcher grouping hperm.symm threshold⟩
  have hself : List.Forall₂ (fun key (h : GroupKey × List Packet) => key = h.1.key)
      ((group scope creator matcher grouping threshold traffic').map (·.1.key))
      (group scope creator matcher grouping threshold traffic') :=
    List.forall₂_map_left_iff.2 (List.forall₂_same.2 fun _ _ => rfl)
  obtain ⟨moved, hmatched, hmoved⟩ := List.perm_comp_forall₂ hkeys hself
  have hshow : List.Forall₂ (ShowSame grouping threshold)
      (group scope creator matcher grouping threshold traffic) moved := by
    obtain ⟨hlength, hpairs⟩ := List.forall₂_iff_zip.1 (List.forall₂_map_left_iff.1 hmatched)
    refine List.forall₂_iff_zip.2 ⟨hlength, fun {g h} hpair => ?_⟩
    obtain ⟨hg, hh⟩ := List.of_mem_zip hpair
    exact showSame_of_same_key scope creator matcher grouping hlabelled hperm threshold
      (GroupKey.beq_iff.2 (hpairs hpair)) hg (hmoved.mem_iff.1 hh)
  have hplaces : (group scope creator matcher grouping threshold traffic).map place =
      moved.map place := by
    rw [← List.forall₂_eq_eq_eq, List.forall₂_map_left_iff, List.forall₂_map_right_iff]
    exact hshow.imp fun _ _ hsame => hsame.place_eq
  have hsorted : ∀ t, ((group scope creator matcher grouping threshold t).map place).Pairwise
      fun r s => (placeOrder r s).isLE = true := fun t =>
    List.pairwise_map.2 (group_sorted scope creator matcher grouping threshold t)
  refine ⟨?_, moved, hmoved, hshow⟩
  refine List.Perm.eq_of_pairwise ?_ (hsorted traffic) (hsorted traffic') ?_
  · intro r s hr hs hrs hsr
    obtain ⟨g, -, rfl⟩ := List.mem_map.1 hr
    obtain ⟨h, -, rfl⟩ := List.mem_map.1 hs
    exact place_eq_of_order hrs hsr
  · rw [hplaces]
    exact hmoved.map place

end Report

end Wiretap.Traffic
