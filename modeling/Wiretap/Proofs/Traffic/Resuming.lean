import Wiretap.Proofs.Traffic.Positions
/-!
# When the packets since a position began

A packet that was open when a position was taken may grow, and then it comes without the bytes that
it had.  But it comes with its **start**, the time of a byte that is cut off.  Every other packet
since the position began after it.

`Reconstruction.Later` says what becomes of the packets as time goes on from a mark: the closed
ones stay, the open one stays or grows (`Packet.Outgrows`), and the others lie within the time
since (`Packet.Within`).  One step keeps it (`Later.append`, `Later.flush`), so it holds of any feed
(`Later.fed`), and it tells the starts of what is cut out (`Later.startsSince`).
-/

namespace Wiretap

/-- Nothing is fed before a mark in time. -/
def Feed.Since (mark : UInt64) : Feed → Prop
  | .append chunk => mark ≤ chunk.time
  | .flush => True

namespace Packet

variable {mark : UInt64} {p grown : Packet} {chunk : Chunk}

/-- The packet began and ended at a mark in time or later. -/
structure Within (mark : UInt64) (p : Packet) : Prop where
  start : mark ≤ p.start
  last : mark ≤ p.last

/-- A packet that has grown since a mark in time, and is the same but for its bytes and its last
time. -/
structure Outgrows (mark : UInt64) (p grown : Packet) : Prop where
  start : grown.start = p.start
  thread : grown.thread = p.thread
  size : p.size < grown.size
  last : mark ≤ grown.last

theorem le_last_extend (htime : mark ≤ chunk.time) : mark ≤ (p.extend chunk).last := by
  show mark ≤ max p.last chunk.time
  rw [UInt64.le_iff_toNat_le] at htime ⊢
  rw [UInt64.toNat_max]
  omega

theorem Within.extend (h : Within mark p) (htime : mark ≤ chunk.time) :
    Within mark (p.extend chunk) :=
  ⟨h.start, le_last_extend htime⟩

/-- A packet that is extended by some bytes outgrows itself. -/
theorem outgrows_extend (hbytes : chunk.bytes ≠ []) (htime : mark ≤ chunk.time) :
    Outgrows mark p (p.extend chunk) := by
  refine ⟨rfl, rfl, ?_, le_last_extend htime⟩
  have hlength := List.length_pos_iff.2 hbytes
  rw [extend, size, size, List.length_append, List.length_reverse]
  omega

theorem Outgrows.extend (h : Outgrows mark p grown) (htime : mark ≤ chunk.time) :
    Outgrows mark p (grown.extend chunk) :=
  ⟨h.start, h.thread, Nat.lt_of_lt_of_le h.size (grown.size_extend chunk), le_last_extend htime⟩

end Packet

namespace Reconstruction

open Packet

variable {mark : UInt64} {before r : Reconstruction}

/-- Packets that went on from those of `before`: the closed ones, then what has become of the open
one, if there was one, and then others that came since. -/
def WentOn (mark : UInt64) (before : Reconstruction) (packets : List Packet) : Prop :=
  ∃ front more, packets = before.closed ++ (front ++ more) ∧
    List.Forall₂ (fun p p' => p' = p ∨ Outgrows mark p p') before.current.toList front ∧
    ∀ q ∈ more, Within mark q

/-- The last packet takes a chunk.  It is one of those that came since, or else the one that was
open; it is none of those that were closed, for it stands behind them. -/
theorem WentOn.extend {closed : List Packet} {p : Packet}
    (h : WentOn mark before (closed ++ [p])) (hclosed : before.closed.length ≤ closed.length)
    {chunk : Chunk} (hbytes : chunk.bytes ≠ []) (htime : mark ≤ chunk.time) :
    WentOn mark before (closed ++ [p.extend chunk]) := by
  obtain ⟨front, more, hpackets, hfront, hmore⟩ := h
  rcases List.eq_nil_or_concat more with rfl | ⟨earlier, q, rfl⟩
  · rw [List.append_nil] at hpackets
    cases hcurrent : before.current with
    | none =>
      rw [hcurrent] at hfront
      cases hfront
      have hlength := congrArg List.length hpackets
      simp only [List.length_append, List.length_singleton, List.length_nil] at hlength
      omega
    | some q =>
      rw [hcurrent] at hfront
      obtain ⟨q', rest, hbecame, hrest, rfl⟩ := List.forall₂_cons_left_iff.1 hfront
      cases hrest
      obtain ⟨rfl, hlast⟩ := List.append_inj' hpackets rfl
      obtain rfl := List.singleton_inj.1 hlast
      refine ⟨[p.extend chunk], [], ?_, ?_, hmore⟩
      · rw [List.append_nil]
      · rw [hcurrent]
        refine .cons (.inr ?_) .nil
        rcases hbecame with rfl | hgrown
        · exact outgrows_extend hbytes htime
        · exact hgrown.extend htime
  · rw [List.concat_eq_append] at hpackets hmore
    rw [← List.append_assoc, ← List.append_assoc] at hpackets
    obtain ⟨rfl, hlast⟩ := List.append_inj' hpackets rfl
    obtain rfl := List.singleton_inj.1 hlast
    refine ⟨front, earlier ++ [p.extend chunk], ?_, hfront, ?_⟩
    · simp only [List.append_assoc]
    · intro q hq
      rcases List.mem_append.1 hq with hq | hq
      · exact hmore q (List.mem_append_left _ hq)
      · rw [List.mem_singleton.1 hq]
        exact (hmore p (by simp)).extend htime

/-- **What becomes of the packets from a mark in time on.** -/
structure Later (mark : UInt64) (before r : Reconstruction) : Prop where
  closed : before.closed.length ≤ r.closed.length
  packets : WentOn mark before r.packets

namespace Later

theorem refl (mark : UInt64) (r : Reconstruction) : Later mark r r := by
  refine ⟨Nat.le_refl _, r.current.toList, [], ?_, ?_, ?_⟩
  · rw [List.append_nil]
    rfl
  · exact List.forall₂_same.2 fun _ _ => .inl rfl
  · intro q hq
    cases hq

theorem flush (h : Later mark before r) : Later mark before r.flush := by
  obtain ⟨hclosed, hpackets⟩ := h
  refine ⟨?_, ?_⟩
  · rw [closed_flush, Reconstruction.packets, List.length_append]
    omega
  · rw [packets_flush]
    exact hpackets

/-- **One chunk.**  It makes a packet of its own or goes to the last one.  That is one of those that
came since, or else the one that was open. -/
theorem append (h : Later mark before r) {chunk : Chunk} (htime : mark ≤ chunk.time) :
    Later mark before (r.append chunk) := by
  by_cases hbytes : chunk.bytes = []
  · rw [append_of_isEmpty (List.isEmpty_iff.2 hbytes)]
    exact h
  · obtain ⟨hclosed, hpackets⟩ := h
    rcases append_cases r chunk with ⟨hnone, -⟩ | ⟨p, hcurrent, -, hgrown⟩ | ⟨-, hopened⟩
    · exact absurd hnone hbytes
    · rw [Reconstruction.packets, hcurrent] at hpackets
      rw [hgrown]
      exact ⟨hclosed, hpackets.extend hclosed hbytes htime⟩
    · obtain ⟨front, more, hpackets, hfront, hmore⟩ := hpackets
      refine ⟨?_, front, more ++ [.ofChunk r.connection chunk], ?_, hfront, ?_⟩
      · rw [hopened, closed_open, hpackets, List.length_append]
        omega
      · rw [hopened, packets_open, hpackets, List.append_assoc, List.append_assoc]
      · intro q hq
        rcases List.mem_append.1 hq with hq | hq
        · exact hmore q hq
        · rw [List.mem_singleton.1 hq]
          exact ⟨htime, htime⟩

end Later

/-- **A feed.**  By induction on it. -/
theorem Later.fed (h : Later mark before r) {feed : List Feed}
    (hfeed : ∀ fed ∈ feed, fed.Since mark) : Later mark before (r.fed feed) := by
  induction feed generalizing r with
  | nil => exact h
  | cons fed rest ih =>
    have hrest : ∀ fed ∈ rest, fed.Since mark := fun other hother =>
      hfeed other (List.mem_cons_of_mem _ hother)
    cases fed with
    | append chunk => exact ih (h.append (hfeed _ List.mem_cons_self)) hrest
    | flush => exact ih h.flush hrest

/-- A packet that was open at one moment and has more bytes at another. -/
def Grew (before after : Reconstruction) (p : Packet) : Prop :=
  before.current = some p ∧
    ∃ grown, after.packets[before.closed.length]? = some grown ∧ p.size < grown.size

/-- **When the packets since a position began.**  Each ended since.  It also began since, unless
it goes on with the packet that was open; and if that one has grown, there is one that does. -/
structure StartsSince (mark : UInt64) (before after : Reconstruction) (packets : List Packet) :
    Prop where
  last : ∀ q ∈ packets, mark ≤ q.last
  start : ∀ q ∈ packets, mark ≤ q.start ∨
    ∃ p, before.Grew after p ∧ q.start = p.start ∧ q.thread = p.thread
  grew : ∀ p, before.Grew after p → ∃ q ∈ packets, q.start = p.start ∧ q.thread = p.thread

/-- Where no packet is open, none has grown. -/
theorem not_grew {p : Packet} (h : before.current = none) : ¬ before.Grew r p := by
  rintro ⟨hp, -⟩
  rw [h] at hp
  cases hp

/-- The open packet is the one that has grown, if its place holds more than it did. -/
theorem grew_iff {p grown q : Packet} (h : before.current = some p)
    (hplace : r.packets[before.closed.length]? = some grown) :
    before.Grew r q ↔ q = p ∧ p.size < grown.size := by
  constructor
  · rintro ⟨hq, grown', hgrown, hsize⟩
    rw [h, Option.some.injEq] at hq
    rw [hplace, Option.some.injEq] at hgrown
    rw [← hq, ← hgrown] at hsize
    exact ⟨hq.symm, hsize⟩
  · rintro ⟨rfl, hsize⟩
    exact ⟨h, grown, hplace, hsize⟩

/-- **The starts since a position.**  If a packet was open, it is the first behind the closed ones.
Then it has grown and is cut, or it has not and is dropped. -/
theorem Later.startsSince (h : Later mark before r) (hreaches : r.reaches before.position = true)
    (hfilled : ∀ p, before.current = some p → 0 < p.size) :
    StartsSince mark before r (r.packetsSince before.position) := by
  obtain ⟨-, front, more, hpackets, hfront, hmore⟩ := h
  have hlast : ∀ q ∈ more, mark ≤ q.last := fun q hq => (hmore q hq).last
  rw [packetsSince_of_reaches hreaches, hpackets, List.drop_left]
  cases hcurrent : before.current with
  | none =>
    have hopen : before.openSize = 0 := by
      rw [openSize, hcurrent]
      rfl
    rw [hcurrent] at hfront
    cases hfront
    rw [hopen, dropFront_zero, List.nil_append]
    exact ⟨hlast, fun q hq => .inl (hmore q hq).start, fun p hp => absurd hp (not_grew hcurrent)⟩
  | some p =>
    have hopen : before.openSize = p.size := by
      rw [openSize, hcurrent]
      rfl
    rw [hcurrent] at hfront
    obtain ⟨p', rest, hbecame, hrest, rfl⟩ := List.forall₂_cons_left_iff.1 hfront
    cases hrest
    have hplace : r.packets[before.closed.length]? = some p' := by
      rw [hpackets, List.getElem?_append_right (Nat.le_refl _), Nat.sub_self]
      rfl
    have hgrew : ∀ {q}, before.Grew r q ↔ q = p ∧ p.size < p'.size := grew_iff hcurrent hplace
    have hpositive : p.size ≠ 0 := Nat.pos_iff_ne_zero.1 (hfilled p hcurrent)
    rw [hopen, List.singleton_append, dropFront, if_neg hpositive]
    rcases hbecame with rfl | hgrown
    · rw [if_pos (Nat.le_refl _)]
      refine ⟨hlast, fun q hq => .inl (hmore q hq).start, fun q hq => ?_⟩
      exact absurd (hgrew.1 hq).2 (Nat.lt_irrefl _)
    · rw [if_neg (Nat.not_le.2 hgrown.size)]
      refine ⟨?_, ?_, fun q hq => ?_⟩
      · intro q hq
        rcases List.mem_cons.1 hq with rfl | hq
        · exact hgrown.last
        · exact hlast q hq
      · intro q hq
        rcases List.mem_cons.1 hq with rfl | hq
        · exact .inr ⟨p, hgrew.2 ⟨rfl, hgrown.size⟩, hgrown.start, hgrown.thread⟩
        · exact .inl (hmore q hq).start
      · rw [(hgrew.1 hq).1]
        exact ⟨_, List.mem_cons_self, hgrown.start, hgrown.thread⟩

end Reconstruction

end Wiretap
