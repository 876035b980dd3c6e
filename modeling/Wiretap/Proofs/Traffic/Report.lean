import Wiretap.Proofs.Gathering
import Wiretap.Proofs.Listing
import Wiretap.Proofs.Traffic.Merging
/-!
# What a traffic report shows

A report keeps every packet that is asked for and adds none.  A packet goes to the group of its
key, which says its address and whatever else the grouping keeps apart; the **members** of a group
are the packets with its key, in the order in which they are given (`members`).  There is a group
for a key exactly if it has members, no key has two groups, and what a group shows is what becomes
of its members when they are settled.  Groups stand in the order of address, ordinal and time.

* `get?_collect` — collecting packets gives each key the packets that have it;
* `exists_group_iff`, `settle_of_mem_group` — which groups there are, and what they show;
* `group_conserves` — all of this for any traffic and any grouping.
-/

namespace Wiretap

namespace Traffic

instance : Std.TransCmp order :=
  inferInstanceAs <| Std.TransCmp <|
    compareLex (compareLex (compareOn fun g : GroupKey × List Packet => g.1.address.host)
        (compareOn fun g => g.1.address.port)) <|
      compareLex (compareOn fun g => g.1.ordinal) (compareOn fun g => firstStart g.2)

/-- Of two ordinals the lower comes first, and none comes before any. -/
def ordinalBefore : Option UInt32 → Option UInt32 → Prop
  | none, some _ => True
  | some m, some n => m < n
  | _, none => False

/-- **The order of a report:** by address, then by ordinal, then by the time of the first packet. -/
def Precedes (g h : GroupKey × List Packet) : Prop :=
  g.1.address.order h.1.address = .lt ∨
    g.1.address = h.1.address ∧
      (ordinalBefore g.1.ordinal h.1.ordinal ∨
        g.1.ordinal = h.1.ordinal ∧ firstStart g.2 ≤ firstStart h.2)

theorem ordinalBefore_of_compare {m n : Option UInt32} (h : compare m n = .lt) :
    ordinalBefore m n := by
  cases m with
  | none =>
    cases n with
    | none => cases h
    | some n => exact trivial
  | some m =>
    cases n with
    | none => cases h
    | some n => exact Std.compare_eq_lt.1 h

theorem precedes_of_order {g h : GroupKey × List Packet} (hle : (order g h).isLE = true) :
    Precedes g h := by
  rw [order, Ordering.isLE_then_iff_or] at hle
  rcases hle with haddress | ⟨haddress, hle⟩
  · exact .inl haddress
  · refine .inr ⟨Address.eq_of_order haddress, ?_⟩
    rw [Ordering.isLE_then_iff_or] at hle
    rcases hle with hordinal | ⟨hordinal, hle⟩
    · exact .inl (ordinalBefore_of_compare hordinal)
    · refine .inr ⟨Std.LawfulEqOrd.eq_of_compare hordinal, ?_⟩
      exact Std.isLE_compare.1 hle

/-- **Collecting gives each key its packets,** in the order in which they came; a key without
packets is not there. -/
theorem get?_collect (packets : List (GroupKey × Packet)) (key : GroupKey) :
    (collect packets).get? key =
      if (packets.filter fun packet => packet.1 == key).map Prod.snd = [] then none
      else some ((packets.filter fun packet => packet.1 == key).map Prod.snd) := by
  have hcollect : collect packets =
      Table.gather Prod.fst (fun ps packet => ps ++ [packet.2]) [] packets := rfl
  rw [hcollect, Table.get?_gather, List.foldl_append_eq_append, List.nil_append,
    ← List.flatMap_def, ← List.map_eq_flatMap]
  exact if_congr List.map_eq_nil_iff.symm rfl rfl

section Report

variable (scope : Scope) (creator : Thread) (matcher : AddressMatcher) (grouping : Grouping)

/-- **The members of a group:** of the connections to addresses that are asked for, the packets of
threads that are asked for which have the key. -/
def members (traffic : Table ConnectionId (List Packet)) (key : GroupKey) : List Packet :=
  traffic.rows.flatMap fun row =>
    (row.2.filter fun p =>
      matcher.accepts row.1.address && scope.selects p.thread creator &&
        grouping.keyOf row.1 p == key).map grouping.erase

/-- The members of a group are the selected packets under its key. -/
theorem mem_members {traffic : Table ConnectionId (List Packet)} {key : GroupKey} {q : Packet} :
    q ∈ members scope creator matcher grouping traffic key ↔
      ∃ row ∈ traffic.rows, ∃ p ∈ row.2, matcher.accepts row.1.address = true ∧
        scope.selects p.thread creator = true ∧ (grouping.keyOf row.1 p == key) = true ∧
        grouping.erase p = q := by
  simp only [members, List.mem_flatMap, List.mem_map, List.mem_filter, Bool.and_eq_true, and_assoc]

theorem filter_selected (traffic : Table ConnectionId (List Packet)) (key : GroupKey) :
    ((selected scope creator matcher grouping traffic).filter fun packet => packet.1 == key).map
        Prod.snd = members scope creator matcher grouping traffic key := by
  rw [selected, members, List.filter_flatMap, List.map_flatMap]
  refine List.flatMap_congr fun row _ => ?_
  obtain ⟨c, packets⟩ := row
  show ((if matcher.accepts c.address = true then _ else []).filter _).map _ = _
  cases matcher.accepts c.address with
  | true =>
    rw [if_pos rfl, List.filter_map, List.map_map, List.filter_filter]
    refine congrArg (List.map _) (List.filter_congr fun p _ => ?_)
    rw [Bool.true_and, Bool.and_comm]
    rfl
  | false => simp

variable (threshold : UInt64) (traffic : Table ConnectionId (List Packet))

/-- The groups before they are put in order are keys with what becomes of their members. -/
theorem group_perm_rows :
    ∃ rows : Table GroupKey (List Packet),
      (group scope creator matcher grouping threshold traffic).Perm
        (rows.rows.map fun row => (row.1, settle grouping threshold row.2)) ∧
      ∀ key, rows.get? key =
        if members scope creator matcher grouping traffic key = [] then none
        else some (members scope creator matcher grouping traffic key) := by
  refine ⟨collect (selected scope creator matcher grouping traffic), List.mergeSort_perm _ _, ?_⟩
  intro key
  rw [get?_collect, filter_selected]

/-- The groups stand in order. -/
theorem group_sorted :
    (group scope creator matcher grouping threshold traffic).Pairwise fun g h =>
      (order g h).isLE = true :=
  Table.pairwise_mergeSort_isLE order _

/-- No key has two groups. -/
theorem group_distinct :
    (group scope creator matcher grouping threshold traffic).Pairwise fun g h =>
      (g.1 == h.1) = false := by
  obtain ⟨rows, hperm, -⟩ := group_perm_rows scope creator matcher grouping threshold traffic
  exact Table.distinct_of_perm hperm.symm (List.pairwise_map.2 rows.distinct)

/-- A key has a group exactly if it has members. -/
theorem exists_group_iff (key : GroupKey) :
    (∃ g ∈ group scope creator matcher grouping threshold traffic, (g.1 == key) = true) ↔
      members scope creator matcher grouping traffic key ≠ [] := by
  obtain ⟨rows, hperm, hget⟩ := group_perm_rows scope creator matcher grouping threshold traffic
  constructor
  · rintro ⟨g, hg, hkey⟩ hnone
    obtain ⟨row, hrow, rfl⟩ := List.mem_map.1 (hperm.mem_iff.1 hg)
    have hfound := Table.get?_eq_some_iff.2 ⟨row.1, hkey, hrow⟩
    rw [hget key, if_pos hnone] at hfound
    cases hfound
  · intro hsome
    have hfound := hget key
    rw [if_neg hsome] at hfound
    obtain ⟨k, hkey, hrow⟩ := Table.get?_eq_some_iff.1 hfound
    exact ⟨_, hperm.mem_iff.2 (List.mem_map.2 ⟨_, hrow, rfl⟩), hkey⟩

/-- A group shows what becomes of its members. -/
theorem settle_of_mem_group {g : GroupKey × List Packet}
    (hg : g ∈ group scope creator matcher grouping threshold traffic) :
    g.2 = settle grouping threshold (members scope creator matcher grouping traffic g.1) := by
  obtain ⟨rows, hperm, hget⟩ := group_perm_rows scope creator matcher grouping threshold traffic
  obtain ⟨row, hrow, rfl⟩ := List.mem_map.1 (hperm.mem_iff.1 hg)
  have hfound := Table.get?_of_mem_rows hrow
  rw [hget row.1] at hfound
  split at hfound
  · cases hfound
  · rw [Option.some.inj hfound]

/-- **What a report has to do with the packets that it is given.**  No key has two groups, and the
groups stand in order.  A packet that is asked for is a member of a group with its key, so there is
just one such group; no group is without members; and a group shows what becomes of its members. -/
structure Conserves (groups : List (GroupKey × List Packet)) : Prop where
  distinct : groups.Pairwise fun g h => (g.1 == h.1) = false
  ordered : groups.Pairwise Precedes
  placed : ∀ row ∈ traffic.rows, matcher.accepts row.1.address = true →
    ∀ p ∈ row.2, scope.selects p.thread creator = true →
      ∃ g ∈ groups, (g.1 == grouping.keyOf row.1 p) = true ∧
        grouping.erase p ∈ members scope creator matcher grouping traffic g.1
  filled : ∀ g ∈ groups, members scope creator matcher grouping traffic g.1 ≠ []
  settled : ∀ g ∈ groups, Settled grouping threshold
    (members scope creator matcher grouping traffic g.1) g.2

end Report

/-- **A report conserves the packets,** whatever the traffic, the scope, the matcher and the
grouping are. -/
theorem group_conserves (scope : Scope) (creator : Thread) (matcher : AddressMatcher)
    (grouping : Grouping) (threshold : UInt64) (traffic : Table ConnectionId (List Packet)) :
    Conserves scope creator matcher grouping threshold traffic
      (group scope creator matcher grouping threshold traffic) := by
  have hexists := exists_group_iff scope creator matcher grouping threshold traffic
  refine ⟨group_distinct scope creator matcher grouping threshold traffic, ?_, ?_, ?_, ?_⟩
  · exact (group_sorted scope creator matcher grouping threshold traffic).imp precedes_of_order
  · intro row hrow haccepts p hp hselects
    have hmember : ∀ key, (grouping.keyOf row.1 p == key) = true →
        grouping.erase p ∈ members scope creator matcher grouping traffic key := fun key hkey =>
      (mem_members scope creator matcher grouping).2
        ⟨row, hrow, p, hp, haccepts, hselects, hkey, rfl⟩
    obtain ⟨g, hg, hkey⟩ := (hexists (grouping.keyOf row.1 p)).2
      (List.ne_nil_of_mem (hmember _ BEq.rfl))
    exact ⟨g, hg, hkey, hmember g.1 (BEq.symm hkey)⟩
  · intro g hg
    exact (hexists g.1).1 ⟨g, hg, BEq.rfl⟩
  · intro g hg
    rw [settle_of_mem_group scope creator matcher grouping threshold traffic hg]
    exact settle_settled grouping threshold _

end Traffic

end Wiretap
