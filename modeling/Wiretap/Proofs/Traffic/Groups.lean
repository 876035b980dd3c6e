import Mathlib.Data.List.Basic
import Wiretap.Proofs.Traffic.Merging
import Wiretap.Proofs.Traffic.Since
/-!
# The groups of a report that is grouped by connection

A report that keeps nothing apart but connections has one group for each connection with packets
that are asked for (`group_perm`).  The packets of a group are sorted by time and put together
where they continue each other.  Where they already stand in the order of time, none of this
changes the bytes or their order (`flow_settle`).
-/

namespace Wiretap

/-- The grouping that keeps nothing apart but connections. -/
def Grouping.connectionOnly : Grouping := ⟨true, false, false⟩

/-- Whether a byte was moved by a thread that is asked for. -/
def Scope.selectsByte (scope : Scope) (creator : Thread) (byte : TaggedByte) : Bool :=
  scope.selects ⟨byte.1, none⟩ creator

/-- Selecting bytes is selecting the calls or packets that they come from, for these have one
thread each. -/
theorem filter_tagged {α : Type} (scope : Scope) (creator : Thread) (thread : α → Thread)
    (direction : α → Direction) (bytes : α → List UInt8) (l : List α) :
    ((l.flatMap fun a => tagged (thread a) (direction a) (bytes a)).filter
        (scope.selectsByte creator)).map Prod.snd =
      (l.filter fun a => scope.selects (thread a) creator).flatMap fun a =>
        (bytes a).map (direction a, ·) := by
  induction l with
  | nil => rfl
  | cons a rest ih =>
    have hthread : ∀ byte ∈ tagged (thread a) (direction a) (bytes a),
        scope.selectsByte creator byte = scope.selects (thread a) creator := by
      intro byte hbyte
      obtain ⟨b, -, rfl⟩ := List.mem_map.1 hbyte
      exact scope.selects_congr rfl creator
    rw [List.flatMap_cons, List.filter_append, List.map_append, ih]
    cases hselects : scope.selects (thread a) creator with
    | true =>
      have hall : (tagged (thread a) (direction a) (bytes a)).filter
          (scope.selectsByte creator) = tagged (thread a) (direction a) (bytes a) :=
        List.filter_eq_self.2 fun byte hbyte => (hthread byte hbyte).trans hselects
      rw [hall, tagged, List.map_map, List.filter_cons, if_pos hselects, List.flatMap_cons]
      rfl
    | false =>
      have hnone : (tagged (thread a) (direction a) (bytes a)).filter
          (scope.selectsByte creator) = [] := by
        refine List.filter_eq_nil_iff.2 fun byte hbyte => ?_
        rw [hthread byte hbyte, hselects]
        exact Bool.false_ne_true
      rw [hnone, List.map_nil, List.nil_append, List.filter_cons, hselects]
      rfl

namespace Traffic

/-- Packets in the order of time are settled without a change to their bytes. -/
theorem flow_settle (grouping : Grouping) (threshold : UInt64) {packets : List Packet}
    (hsorted : (packets.map Packet.start).Pairwise (· ≤ ·)) :
    (settle grouping threshold packets).flatMap Packet.flow = packets.flatMap Packet.flow := by
  rw [settle_eq, mergeSort_of_sorted (List.pairwise_map.1 hsorted)]
  exact flow_merge grouping threshold packets

/-- Packets with the key of their group, group after group. -/
def spread (groups : List (GroupKey × List Packet)) : List (GroupKey × Packet) :=
  groups.flatMap fun g => g.2.map (g.1, ·)

/-- The rows of a collection after one more packet. -/
def collectRow (rows : List (GroupKey × List Packet)) (packet : GroupKey × Packet) :
    List (GroupKey × List Packet) :=
  Table.alterRows packet.1 (fun ps => ps.getD [] ++ [packet.2]) rows

/-- Collecting into a table is collecting into its rows. -/
theorem rows_foldl_alter (packets : List (GroupKey × Packet))
    (table : Table GroupKey (List Packet)) :
    (packets.foldl (fun groups (k, p) => groups.alter k fun ps => ps.getD [] ++ [p]) table).rows =
      packets.foldl collectRow table.rows := by
  induction packets generalizing table with
  | nil => rfl
  | cons packet rest ih => exact ih _

theorem collect_rows (packets : List (GroupKey × Packet)) :
    (collect packets).rows = packets.foldl collectRow [] :=
  rows_foldl_alter packets .empty

/-- A packet of a group that is not there yet makes a row behind the others. -/
theorem collectRow_new {rows : List (GroupKey × List Packet)} {key : GroupKey}
    (hkey : ∀ row ∈ rows, (row.1 == key) = false) (p : Packet) :
    collectRow rows (key, p) = rows ++ [(key, [p])] := by
  unfold collectRow
  induction rows with
  | nil => rfl
  | cons row rest ih =>
    have hrow := hkey row List.mem_cons_self
    have hrest := ih fun other hother => hkey other (List.mem_cons_of_mem _ hother)
    rw [Table.alterRows, hrow, if_neg Bool.false_ne_true, hrest, List.cons_append]

/-- A packet of the last group comes behind its packets. -/
theorem collectRow_last {rows : List (GroupKey × List Packet)} {key : GroupKey}
    (hkey : ∀ row ∈ rows, (row.1 == key) = false) (packets : List Packet) (p : Packet) :
    collectRow (rows ++ [(key, packets)]) (key, p) = rows ++ [(key, packets ++ [p])] := by
  unfold collectRow
  induction rows with
  | nil =>
    have hself : (key == key) = true := BEq.rfl
    rw [List.nil_append, Table.alterRows, if_pos hself]
    rfl
  | cons row rest ih =>
    have hrow := hkey row List.mem_cons_self
    have hrest := ih fun other hother => hkey other (List.mem_cons_of_mem _ hother)
    rw [List.cons_append, Table.alterRows, hrow, if_neg Bool.false_ne_true, hrest,
      List.cons_append]

/-- Packets of the last key are put to the last group. -/
theorem collect_last {rows : List (GroupKey × List Packet)} {key : GroupKey}
    (hkey : ∀ row ∈ rows, (row.1 == key) = false) (first packets : List Packet) :
    (packets.map (key, ·)).foldl collectRow (rows ++ [(key, first)]) =
      rows ++ [(key, first ++ packets)] := by
  induction packets generalizing first with
  | nil => rw [List.append_nil]; rfl
  | cons p rest ih =>
    rw [List.map_cons, List.foldl_cons, collectRow_last hkey, ih, List.append_assoc]
    rfl

/-- The packets of a new group make one row, unless there are none. -/
theorem collect_group {rows : List (GroupKey × List Packet)} {key : GroupKey}
    (hkey : ∀ row ∈ rows, (row.1 == key) = false) (packets : List Packet) :
    (packets.map (key, ·)).foldl collectRow rows =
      rows ++ [(key, packets)].filter fun g => !g.2.isEmpty := by
  cases packets with
  | nil => exact (List.append_nil rows).symm
  | cons p rest =>
    rw [List.map_cons, List.foldl_cons, collectRow_new hkey, collect_last hkey]
    rfl

/-- **Collecting.**  Packets that come group after group are collected into those groups again,
but for the groups without packets. -/
theorem collect_spread {groups : List (GroupKey × List Packet)}
    (hdistinct : groups.Pairwise fun g h => (g.1 == h.1) = false) :
    (collect (spread groups)).rows = groups.filter fun g => !g.2.isEmpty := by
  have general : ∀ rows : List (GroupKey × List Packet),
      (∀ row ∈ rows, ∀ g ∈ groups, (row.1 == g.1) = false) →
      (spread groups).foldl collectRow rows = rows ++ groups.filter fun g => !g.2.isEmpty := by
    induction groups with
    | nil => exact fun rows _ => (List.append_nil rows).symm
    | cons g rest ih =>
      intro rows hrows
      obtain ⟨hfirst, hrest⟩ := List.pairwise_cons.1 hdistinct
      have hone := collect_group (fun row hrow => hrows row hrow g List.mem_cons_self) g.2
      have hspread : spread (g :: rest) = g.2.map (g.1, ·) ++ spread rest := rfl
      rw [hspread, List.foldl_append, hone, ih hrest]
      · rw [List.append_assoc, ← List.filter_append]
        rfl
      · intro row hrow h hh
        rcases List.mem_append.1 hrow with hrow | hrow
        · exact hrows row hrow h (List.mem_cons_of_mem _ hh)
        · rw [List.mem_singleton.1 (List.mem_filter.1 hrow).1]
          exact hfirst h hh
  rw [collect_rows, general [] fun row hrow => (List.not_mem_nil hrow).elim, List.nil_append]

/-- The group of a connection. -/
def groupOf (c : ConnectionId) : GroupKey := ⟨c.address, some c.ordinal, none, none⟩

/-- Identities are in one group exactly if they are of one connection. -/
theorem groupOf_beq (c d : ConnectionId) :
    (groupOf c == groupOf d) = (c.connection == d.connection) := by
  rw [Bool.eq_iff_iff, GroupKey.beq_iff, beq_iff_eq]
  simp [GroupKey.key, groupOf, ConnectionId.connection]

/-- The packets of threads that are asked for. -/
def ofThreads (scope : Scope) (creator : Thread) (packets : List Packet) : List Packet :=
  packets.filter fun p => scope.selects p.thread creator

/-- The packets of a connection as they go into its group. -/
def share (scope : Scope) (creator : Thread) (matcher : AddressMatcher)
    (row : ConnectionId × List Packet) : GroupKey × List Packet :=
  (groupOf row.1,
    if matcher.accepts row.1.address then
      (ofThreads scope creator row.2).map Grouping.connectionOnly.erase
    else [])

/-- Grouped by connection alone, what is selected is the shares of the connections. -/
theorem selected_eq_spread (scope : Scope) (creator : Thread) (matcher : AddressMatcher)
    (traffic : Table ConnectionId (List Packet)) :
    selected scope creator matcher .connectionOnly traffic =
      spread (traffic.rows.map (share scope creator matcher)) := by
  unfold selected spread
  rw [List.flatMap_map]
  refine List.flatMap_congr fun row _ => ?_
  simp only [share]
  split
  · rw [List.map_map]
    rfl
  · rfl

/-- What grouping hides of packets is none of their bytes. -/
theorem flow_erase (grouping : Grouping) (packets : List Packet) :
    (packets.map grouping.erase).flatMap Packet.flow = packets.flatMap Packet.flow := by
  rw [List.flatMap_map]
  refine List.flatMap_congr fun p _ => ?_
  unfold Grouping.erase
  split <;> rfl

theorem start_erase (grouping : Grouping) (packets : List Packet) :
    (packets.map grouping.erase).map Packet.start = packets.map Packet.start := by
  rw [List.map_map]
  refine List.map_congr_left fun p _ => ?_
  rw [Function.comp_apply, Grouping.erase]
  split <;> rfl

/-- **The groups of a report by connection.**  There is one for each connection to an address that
is asked for with packets of threads that are asked for, and it has the bytes of these packets in
their order. -/
theorem group_perm (scope : Scope) (creator : Thread) (matcher : AddressMatcher)
    (threshold : UInt64) {traffic : Table ConnectionId (List Packet)}
    (hdistinct : traffic.rows.Pairwise fun a b => a.1.connection ≠ b.1.connection)
    (hsorted : ∀ row ∈ traffic.rows, (row.2.map Packet.start).Pairwise (· ≤ ·)) :
    ((group scope creator matcher .connectionOnly threshold traffic).map fun g =>
        (g.1, g.2.flatMap Packet.flow)).Perm
      ((traffic.rows.filter fun row =>
          matcher.accepts row.1.address && !(ofThreads scope creator row.2).isEmpty).map fun row =>
        (groupOf row.1, (ofThreads scope creator row.2).flatMap Packet.flow)) := by
  have hkeys : (traffic.rows.map (share scope creator matcher)).Pairwise fun g h =>
      (g.1 == h.1) = false := by
    refine List.pairwise_map.2 (hdistinct.imp fun {a b} hne => ?_)
    exact (groupOf_beq a.1 b.1).trans (beq_eq_false_iff_ne.2 hne)
  have hcollect := collect_spread hkeys
  unfold group
  simp only [selected_eq_spread, hcollect]
  refine ((List.mergeSort_perm _ _).map _).trans ?_
  rw [List.map_map, List.filter_map, List.map_map]
  have hkept : (traffic.rows.filter
      ((fun g : GroupKey × List Packet => !g.2.isEmpty) ∘ share scope creator matcher)) =
        traffic.rows.filter fun row =>
          matcher.accepts row.1.address && !(ofThreads scope creator row.2).isEmpty := by
    refine List.filter_congr fun row _ => ?_
    rw [Function.comp_apply, share]
    cases matcher.accepts row.1.address <;> simp
  rw [hkept]
  refine List.Perm.of_eq (List.map_congr_left fun row hrow => ?_)
  obtain ⟨hrow, hkeep⟩ := List.mem_filter.1 hrow
  have haccepts : matcher.accepts row.1.address = true := (Bool.and_eq_true_iff.1 hkeep).1
  have hshare : share scope creator matcher row =
      (groupOf row.1, (ofThreads scope creator row.2).map Grouping.connectionOnly.erase) := by
    rw [share, if_pos haccepts]
  have htimely : (((ofThreads scope creator row.2).map Grouping.connectionOnly.erase).map
      Packet.start).Pairwise (· ≤ ·) := by
    rw [start_erase]
    exact (hsorted row hrow).sublist (List.filter_sublist.map _)
  simp only [Function.comp_apply, hshare]
  rw [flow_settle _ threshold htimely, flow_erase]

theorem groupOf_congr {c d : ConnectionId} (h : c.connection = d.connection) :
    groupOf c = groupOf d := by
  simp only [ConnectionId.connection, Prod.mk.injEq] at h
  obtain ⟨haddress, hordinal⟩ := h
  rw [groupOf, groupOf, haddress, hordinal]

/-- Of packets of which none is without bytes, there are none only if there are no bytes. -/
theorem isEmpty_flatMap {β : Type} {f : Packet → List β} (hf : ∀ p, (f p).length = p.size)
    {packets : List Packet} (hsize : ∀ p ∈ packets, 0 < p.size) :
    (packets.flatMap f).isEmpty = packets.isEmpty := by
  cases packets with
  | nil => rfl
  | cons p rest =>
    have hlength := hf p
    have hpositive := hsize p List.mem_cons_self
    cases hbytes : f p with
    | nil =>
      rw [hbytes, List.length_nil] at hlength
      omega
    | cons byte more =>
      rw [List.flatMap_cons, hbytes]
      rfl

theorem length_flow (p : Packet) : p.flow.length = p.size := by
  rw [Packet.flow, List.length_map, Packet.length_payload]

/-- The bytes of the packets of some threads are those of their bytes. -/
theorem flow_ofThreads (scope : Scope) (creator : Thread) (packets : List Packet) :
    (ofThreads scope creator packets).flatMap Packet.flow =
      ((packets.flatMap Packet.tagged).filter (scope.selectsByte creator)).map Prod.snd :=
  (filter_tagged scope creator Packet.thread Packet.direction Packet.payload packets).symm

end Traffic

end Wiretap
