import Wiretap.Proofs.Traffic.Merging
/-!
# Merging with and without regard to threads

The loop for groups that do not keep threads apart lends each packet the thread of the one before
it, tries to put the two together, and gives the thread back where that fails.  Nobody sees the
loan: but for the threads the loop does what the other one does where a single thread moved all the
bytes (`joinFrom_onThread`).  The threads that come out are those of the first packets of the runs
(`MadeOf.standsFor`), so a packet that stays alone has its own again.

`merge_loops_agree` puts both together.
-/

namespace Wiretap

namespace Packet

/-- The packet as if a given thread had moved its bytes. -/
def onThread (t : Thread) (p : Packet) : Packet := { p with thread := t }

theorem join_onThread (t : Thread) (p next : Packet) :
    (p.onThread t).join (next.onThread t) = (p.join next).onThread t := rfl

/-- Where one thread moved all the bytes, it does not matter whether threads are looked at. -/
theorem mergeable_onThread (byThread : Bool) (threshold : UInt64) (t : Thread) (p next : Packet) :
    (p.onThread t).Mergeable byThread threshold (next.onThread t) ↔
      p.Mergeable false threshold next := by
  constructor
  · rintro ⟨hdirection, htrace, -, hshort⟩
    exact ⟨hdirection, htrace, nofun, hshort⟩
  · rintro ⟨hdirection, htrace, -, hshort⟩
    exact ⟨hdirection, htrace, fun _ => rfl, hshort⟩

/-- **What comes out for a run of packets:** the thread, the time, the connection and the call site
of the first of them, the bytes of all of them, and the very packet where it is alone. -/
structure StandsFor (run : List Packet) (p : Packet) : Prop where
  first : ∃ q ∈ run.head?, p.thread = q.thread ∧ p.start = q.start ∧
    p.connection = q.connection ∧ p.trace = q.trace
  payload : p.payload = run.flatMap Packet.payload
  alone : ∀ q, run = [q] → p = q

/-- A packet that is made of one packet is that packet. -/
theorem MadeOf.eq_of_alone {q p : Packet} (h : MadeOf [q] p) : p = q := by
  obtain ⟨⟨first, hfirst, hp⟩, -, hpayload, hlast⟩ := h
  rw [List.head?_cons, Option.mem_some_iff] at hfirst
  subst hfirst
  have hnewest : p.newestFirst = q.newestFirst := by
    rw [List.flatMap_singleton] at hpayload
    exact List.reverse_injective hpayload
  obtain ⟨a, ha, hreached⟩ := hlast.reached
  rw [List.mem_singleton.1 ha] at hreached
  rw [hp, hnewest, hreached]

theorem MadeOf.standsFor {run : List Packet} {p : Packet} (h : MadeOf run p) :
    StandsFor run p where
  first := by
    obtain ⟨q, hq, hp⟩ := h.first
    refine ⟨q, hq, ?_⟩
    rw [hp]
    exact ⟨rfl, rfl, rfl, rfl⟩
  payload := h.payload
  alone := by
    rintro q rfl
    exact h.eq_of_alone

end Packet

namespace Traffic

open Packet

/-- **The simulation.**  `p` is what was merged so far, and stands for its image on the thread.
Both sides merge the next packet or neither does, and in either case the images go on alike. -/
theorem joinFrom_onThread (byThread : Bool) (threshold : UInt64) (t : Thread) (p : Packet)
    (rest : List Packet) :
    joinFrom byThread threshold (p.onThread t) (rest.map (onThread t)) =
      (joinFrom false threshold p rest).map (onThread t) := by
  induction rest generalizing p with
  | nil => rfl
  | cons next rest ih =>
    have hiff := mergeable_onThread byThread threshold t p next
    rw [List.map_cons, joinFrom, joinFrom]
    by_cases hmergeable : p.Mergeable false threshold next
    · rw [if_pos (hiff.2 hmergeable), if_pos hmergeable, join_onThread]
      exact ih (p.join next)
    · rw [if_neg fun h => hmergeable (hiff.1 h), if_neg hmergeable, List.map_cons, ih next]

/-- **Both loops merge alike.**  Whatever packets there are and however long a pause may be: but for
the threads, merging without regard to them gives what merging gives when all bytes were moved by
one thread.  The packets are cut into runs, and what comes out for a run has all but its bytes and
its last time from the first packet of it. -/
theorem merge_loops_agree (threshold : UInt64) (packets : List Packet) :
    (∀ t : Thread, (mergeAdjacentAnyThread threshold packets).map (onThread t) =
      mergeAdjacent threshold (packets.map (onThread t))) ∧
    ∃ runs, Cutting (parts false threshold) packets runs ∧
      List.Forall₂ StandsFor runs (mergeAdjacentAnyThread threshold packets) := by
  constructor
  · intro t
    cases packets with
    | nil => rfl
    | cons p rest =>
      calc (mergeAnyThreadFrom threshold p rest).map (onThread t)
          = (joinFrom false threshold p rest).map (onThread t) := by rw [mergeAnyThreadFrom_eq]
        _ = joinFrom true threshold (p.onThread t) (rest.map (onThread t)) :=
            (joinFrom_onThread true threshold t p rest).symm
        _ = mergeFrom threshold (p.onThread t) (rest.map (onThread t)) :=
            (mergeFrom_eq threshold _ _).symm
  · have hmerge : merge ⟨true, false, true⟩ threshold packets =
        mergeAdjacentAnyThread threshold packets := rfl
    obtain ⟨runs, hcutting, hmade⟩ := merge_runs ⟨true, false, true⟩ threshold packets
    rw [hmerge] at hmade
    exact ⟨runs, hcutting, hmade.imp fun _ _ h => h.standsFor⟩

/-- Three threads send in turn, the last after a long pause: the first two packets become one of
the first thread, and the third is that of its own thread. -/
example :
    let sent := fun (id : Nat) (time : UInt64) (bytes : List UInt8) =>
      Packet.ofChunk ⟨⟨"db", 5432⟩, 0, ⟨1, none⟩, none⟩ ⟨.sent, bytes, time, ⟨id, none⟩, none⟩
    (mergeAdjacentAnyThread 5 [sent 1 0 [97], sent 2 4 [98], sent 3 90 [99]]).map
        (fun p => (p.thread.id, p.start, p.payload)) = [(1, 0, [97, 98]), (3, 90, [99])] := by
  decide

end Traffic

end Wiretap
