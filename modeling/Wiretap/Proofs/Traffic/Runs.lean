import Wiretap.Proofs.Traffic.Cutting
import Wiretap.Proofs.Traffic.Since
/-!
# The packets of a reconstruction are the runs of its chunks

A reconstruction is **fed** with chunks, and told to close its open packet.  What it makes of this
can be said by looking at the chunks alone.  Those without bytes do not count; the others, in the
order in which they came, are cut into runs, and there is one packet for each run.  A chunk begins
a run of its own

* where the open packet was closed since the chunk before it,
* where its direction or its thread is not that of the chunk before it, or
* where it comes later, by more than the threshold, than every chunk of the run so far

(`Arrival.opens`).  The last condition asks for the latest time of the run, not for that of the
chunk before: where the clock steps back, the pause is measured from where it had been.

There is only one way to cut the chunks by this rule, so the packets are known from the feed
(`packets_are_runs`).  The step lemmas are `Follows.append` and `Follows.flush`, the run lemma is
`Follows.fed`.
-/

namespace Wiretap

/-- What a reconstruction is fed with. -/
inductive Feed where
  | append (chunk : Chunk)
  /-- The open packet is closed. -/
  | flush

/-- A chunk with bytes, and whether the open packet was closed since the chunk before it. -/
structure Arrival where
  chunk : Chunk
  flushed : Bool

namespace Feed

/-- The chunk that is fed, unless it has no bytes. -/
def chunk? : Feed → Option Chunk
  | .append chunk => if chunk.bytes.isEmpty then none else some chunk
  | .flush => none

/-- The chunks with bytes, each with whether a flush came since the one before it.  `flushed` says
that one came already. -/
def arrivals (flushed : Bool) : List Feed → List Arrival
  | [] => []
  | .flush :: rest => arrivals true rest
  | .append chunk :: rest =>
    if chunk.bytes.isEmpty then arrivals flushed rest
    else ⟨chunk, flushed⟩ :: arrivals false rest

/-- No chunk with bytes is lost, and none is added. -/
theorem chunks_arrivals (flushed : Bool) (feed : List Feed) :
    (arrivals flushed feed).map Arrival.chunk = feed.filterMap chunk? := by
  induction feed generalizing flushed with
  | nil => rfl
  | cons fed rest ih =>
    cases fed with
    | flush => exact ih true
    | append chunk =>
      unfold arrivals
      by_cases hempty : chunk.bytes.isEmpty = true
      · have hnone : (Feed.append chunk).chunk? = none := if_pos hempty
        rw [if_pos hempty, List.filterMap_cons_none hnone]
        exact ih flushed
      · have hsome : (Feed.append chunk).chunk? = some chunk := if_neg hempty
        rw [if_neg hempty, List.filterMap_cons_some hsome, List.map_cons, ih]

end Feed

/-- Whether a chunk begins a run of its own behind a run. -/
def Arrival.opens (threshold : UInt64) (run : List Arrival) (next : Arrival) : Prop :=
  next.flushed = true ∨
    (∃ before ∈ run.getLast?, before.chunk.direction ≠ next.chunk.direction ∨
      before.chunk.thread.id ≠ next.chunk.thread.id) ∨
    ∀ a ∈ run, a.chunk.time.toNat + threshold.toNat < next.chunk.time.toNat

/-- **What a packet carries of a run of chunks:** all their bytes in their order.  It began with the
first of them, which gives it its thread and its call site, and it knows the latest of their
times. -/
structure Packet.Carries (connection : ConnectionId) (run : List Arrival) (p : Packet) : Prop where
  connection : p.connection = connection
  first : ∃ a ∈ run.head?, p.start = a.chunk.time ∧ p.thread = a.chunk.thread ∧
    p.trace = a.chunk.trace
  alike : ∀ a ∈ run, a.chunk.direction = p.direction ∧ a.chunk.thread.id = p.thread.id
  payload : p.payload = run.flatMap fun a => a.chunk.bytes
  filled : p.payload ≠ []
  last : IsLatest (fun a : Arrival => a.chunk.time) run p.last

namespace Packet.Carries

variable {connection : ConnectionId} {run : List Arrival} {p : Packet}

theorem ofChunk (connection : ConnectionId) {chunk : Chunk} (hbytes : chunk.bytes ≠ [])
    (flushed : Bool) : Carries connection [⟨chunk, flushed⟩] (.ofChunk connection chunk) := by
  refine ⟨rfl, ⟨_, rfl, rfl, rfl, rfl⟩, ?_, ?_, ?_, .singleton _⟩
  · intro a ha
    rw [List.mem_singleton.1 ha]
    exact ⟨rfl, rfl⟩
  · rw [payload_ofChunk, List.flatMap_singleton]
  · rw [payload_ofChunk]
    exact hbytes

/-- A chunk that continues the packet joins the run. -/
theorem extend (h : Carries connection run p) {chunk : Chunk}
    (hdirection : p.direction = chunk.direction) (hthread : p.thread.id = chunk.thread.id)
    (flushed : Bool) : Carries connection (run ++ [⟨chunk, flushed⟩]) (p.extend chunk) := by
  obtain ⟨hconnection, ⟨a, ha, hfirst⟩, halike, hpayload, hfilled, hlast⟩ := h
  refine ⟨hconnection, ⟨a, ?_, hfirst⟩, ?_, ?_, ?_, hlast.concat ⟨chunk, flushed⟩⟩
  · rw [List.head?_append, Option.mem_def.1 ha, Option.some_or]
    rfl
  · intro b hb
    rcases List.mem_append.1 hb with hb | hb
    · exact halike b hb
    · rw [List.mem_singleton.1 hb]
      exact ⟨hdirection.symm, hthread.symm⟩
  · rw [payload_extend, hpayload, List.flatMap_append, List.flatMap_singleton]
  · rw [payload_extend]
    exact List.append_ne_nil_of_left_ne_nil hfilled _

/-- **The packet's own test agrees with the rule.**  The packet looks at its direction, its thread
and its last time; the rule looks at the chunks. -/
theorem continues_iff (h : Carries connection run p) (chunk : Chunk) (threshold : UInt64) :
    p.continues chunk.direction chunk.thread chunk.time threshold = true ↔
      ¬ Arrival.opens threshold run ⟨chunk, false⟩ := by
  have hpause := h.last.pause_iff chunk.time threshold
  have hlast : ∃ before ∈ run.getLast?, before.chunk.direction = p.direction ∧
      before.chunk.thread.id = p.thread.id := by
    obtain ⟨a, ha, -⟩ := h.first
    cases hrun : run.getLast? with
    | none =>
      rw [List.getLast?_eq_none_iff.1 hrun] at ha
      cases ha
    | some before => exact ⟨before, rfl, h.alike before (List.mem_of_getLast? hrun)⟩
  obtain ⟨before, hbefore, hdirection, hthread⟩ := hlast
  rw [Packet.continues, Bool.and_eq_true, Bool.and_eq_true, beq_iff_eq, Thread.beq_iff,
    decide_eq_true_eq]
  constructor
  · rintro ⟨⟨hd, ht⟩, hshort⟩ (hflushed | ⟨b, hb, hother⟩ | hlong)
    · cases hflushed
    · rw [hbefore, Option.mem_some_iff] at hb
      subst hb
      rcases hother with hother | hother
      · exact hother (hdirection.trans hd)
      · exact hother (hthread.trans ht)
    · exact hpause.2 hlong hshort
  · intro hnot
    have hsame : before.chunk.direction = chunk.direction ∧
        before.chunk.thread.id = chunk.thread.id := by
      constructor
      · by_contra hne
        exact hnot (.inr (.inl ⟨before, hbefore, .inl hne⟩))
      · by_contra hne
        exact hnot (.inr (.inl ⟨before, hbefore, .inr hne⟩))
    refine ⟨⟨hdirection.symm.trans hsame.1, hthread.symm.trans hsame.2⟩, ?_⟩
    by_contra hlong
    exact hnot (.inr (.inr (hpause.1 hlong)))

end Packet.Carries

namespace Reconstruction

/-- The reconstruction after it was fed once. -/
def take (r : Reconstruction) : Feed → Reconstruction
  | .append chunk => r.append chunk
  | .flush => r.flush

/-- The reconstruction after it was fed. -/
def fed (r : Reconstruction) (feed : List Feed) : Reconstruction := feed.foldl take r

/-- A new reconstruction after it was fed. -/
def ofFeed (connection : ConnectionId) (threshold : UInt64) (feed : List Feed) : Reconstruction :=
  fed { connection, threshold } feed

/-- A feed may be taken in two parts. -/
theorem fed_append (r : Reconstruction) (first second : List Feed) :
    r.fed (first ++ second) = (r.fed first).fed second := List.foldl_append

theorem ofFeed_append (connection : ConnectionId) (threshold : UInt64) (first second : List Feed) :
    ofFeed connection threshold (first ++ second) =
      (ofFeed connection threshold first).fed second := fed_append _ first second

/-- **The invariant.**  What arrived is cut into runs; there is a closed packet for each of those
that are `done`, and the open packet, if there is one, carries the run that is under way. -/
structure Follows (r : Reconstruction) (arrived : List Arrival) (flushed : Bool)
    (done current : List (List Arrival)) : Prop where
  cutting : Cutting (Arrival.opens r.threshold) arrived (done ++ current)
  closed : List.Forall₂ (Packet.Carries r.connection) done r.closed
  current : List.Forall₂ (Packet.Carries r.connection) current r.current.toList
  /-- After a flush no packet is open. -/
  shut : flushed = true → r.current = none
  /-- Without one no packet is open only before the first chunk. -/
  still : flushed = false → r.current = none → arrived = []

namespace Follows

variable {r : Reconstruction} {arrived : List Arrival} {flushed : Bool}
  {done current : List (List Arrival)}

theorem blank (connection : ConnectionId) (threshold : UInt64) :
    Follows { connection, threshold } [] false [] [] :=
  ⟨.nil, .nil, .nil, fun _ => rfl, fun _ _ => rfl⟩

theorem packets (h : r.Follows arrived flushed done current) :
    List.Forall₂ (Packet.Carries r.connection) (done ++ current) r.packets :=
  List.rel_append h.closed h.current

/-- Closing the open packet ends its run. -/
theorem flush (h : r.Follows arrived flushed done current) :
    r.flush.Follows arrived true (done ++ current) [] := by
  refine ⟨?_, ?_, .nil, fun _ => rfl, nofun⟩
  · rw [List.append_nil]
    exact h.cutting
  · rw [closed_flush]
    exact h.packets

/-- A chunk that finds no open packet, or one that it does not continue, begins a run. -/
private theorem open_next (h : r.Follows arrived flushed done current) {chunk : Chunk}
    (hbytes : chunk.bytes ≠ [])
    (hopens : ∀ run ∈ (done ++ current).getLast?, Arrival.opens r.threshold run ⟨chunk, flushed⟩) :
    Follows { r.flush with current := some (.ofChunk r.connection chunk) }
      (arrived ++ [⟨chunk, flushed⟩]) false (done ++ current) [[⟨chunk, flushed⟩]] := by
  refine ⟨h.cutting.start hopens, ?_, ?_, nofun, nofun⟩
  · rw [closed_open]
    exact h.packets
  · exact .cons (.ofChunk r.connection hbytes flushed) .nil

/-- **One chunk.**  Where a packet is open, its own test decides as the rule does; where none is,
it was flushed or nothing came yet. -/
theorem append (h : r.Follows arrived flushed done current) {chunk : Chunk}
    (hbytes : chunk.bytes ≠ []) :
    ∃ done' current',
      (r.append chunk).Follows (arrived ++ [⟨chunk, flushed⟩]) false done' current' := by
  have hempty : ¬ chunk.bytes.isEmpty = true := fun h => hbytes (List.isEmpty_iff.1 h)
  unfold Reconstruction.append
  rw [if_neg hempty]
  cases hopen : r.current with
  | none =>
    refine ⟨_, _, h.open_next hbytes ?_⟩
    intro run hrun
    cases hflushed : flushed with
    | true => exact .inl rfl
    | false =>
      have harrived : (done ++ current).flatten = [] :=
        h.cutting.flatten.trans (h.still hflushed hopen)
      have hmem := List.mem_of_getLast? hrun
      exact absurd (List.flatten_eq_nil_iff.1 harrived run hmem) (h.cutting.filled run hmem)
  | some p =>
    have hunflushed : flushed = false := by
      cases hflushed : flushed with
      | false => rfl
      | true =>
        have hnone := h.shut hflushed
        rw [hopen] at hnone
        cases hnone
    subst hunflushed
    have hcurrent := h.current
    rw [hopen] at hcurrent
    obtain ⟨run, rest, hcarries, hrest, rfl⟩ := List.forall₂_cons_right_iff.1 hcurrent
    obtain rfl := List.forall₂_nil_right_iff.1 hrest
    have hiff := hcarries.continues_iff chunk r.threshold
    by_cases hcontinues : p.continues chunk.direction chunk.thread chunk.time r.threshold = true
    · simp only [if_pos hcontinues]
      refine ⟨done, [run ++ [⟨chunk, false⟩]], h.cutting.grow (hiff.1 hcontinues), h.closed, ?_,
        nofun, nofun⟩
      rw [Packet.continues, Bool.and_eq_true, Bool.and_eq_true] at hcontinues
      exact .cons (hcarries.extend (eq_of_beq hcontinues.1.1) (Thread.beq_iff.1 hcontinues.1.2)
        false) .nil
    · simp only [if_neg hcontinues]
      refine ⟨_, _, h.open_next hbytes ?_⟩
      intro last hlast
      rw [List.getLast?_concat, Option.mem_some_iff] at hlast
      subst hlast
      by_contra hnot
      exact hcontinues (hiff.2 hnot)

/-- **A feed.**  By induction on it, from any moment at which the invariant holds. -/
theorem fed (h : r.Follows arrived flushed done current) (feed : List Feed) :
    ∃ flushed' done' current',
      (r.fed feed).Follows (arrived ++ Feed.arrivals flushed feed) flushed' done' current' := by
  induction feed generalizing r arrived flushed done current with
  | nil =>
    refine ⟨flushed, done, current, ?_⟩
    rw [Feed.arrivals, List.append_nil]
    exact h
  | cons fed rest ih =>
    cases fed with
    | flush => exact ih h.flush
    | append chunk =>
      by_cases hempty : chunk.bytes.isEmpty = true
      · have hsame : (r.append chunk) = r := append_of_isEmpty hempty
        have hnext := ih h
        rw [Feed.arrivals, if_pos hempty]
        show ∃ flushed' done' current', ((r.append chunk).fed rest).Follows _ _ _ _
        rw [hsame]
        exact hnext
      · have hbytes : chunk.bytes ≠ [] := fun h => hempty (List.isEmpty_iff.2 h)
        obtain ⟨done', current', hstep⟩ := h.append hbytes
        have hnext := ih hstep
        rw [List.append_assoc, List.singleton_append] at hnext
        rw [Feed.arrivals, if_neg hempty]
        exact hnext

end Follows

/-- Nothing that is fed touches a closed packet, and their number only grows. -/
theorem closed_prefix_fed (r : Reconstruction) (feed : List Feed) :
    r.closed <+: (r.fed feed).closed := by
  induction feed generalizing r with
  | nil => exact List.prefix_refl _
  | cons fed rest ih =>
    refine List.IsPrefix.trans ?_ (ih (r.take fed))
    cases fed with
    | append chunk => exact r.closed_prefix_append chunk
    | flush =>
      show r.closed <+: r.flush.closed
      rw [closed_flush]
      exact List.prefix_append _ _

/-- What is taken in changes neither the connection nor the threshold. -/
theorem connection_take (r : Reconstruction) (fed : Feed) :
    (r.take fed).connection = r.connection ∧ (r.take fed).threshold = r.threshold := by
  cases fed with
  | flush => exact ⟨rfl, rfl⟩
  | append chunk =>
    rw [take]
    rcases append_cases r chunk with ⟨-, hsame⟩ | ⟨p, -, -, hgrown⟩ | ⟨-, hopened⟩
    · rw [hsame]
      exact ⟨rfl, rfl⟩
    · rw [hgrown]
      exact ⟨rfl, rfl⟩
    · rw [hopened]
      exact ⟨rfl, rfl⟩

theorem connection_fed (r : Reconstruction) (feed : List Feed) :
    (r.fed feed).connection = r.connection ∧ (r.fed feed).threshold = r.threshold := by
  induction feed generalizing r with
  | nil => exact ⟨rfl, rfl⟩
  | cons fed rest ih =>
    obtain ⟨hconnection, hthreshold⟩ := ih (r.take fed)
    obtain ⟨hconnection', hthreshold'⟩ := r.connection_take fed
    exact ⟨hconnection.trans hconnection', hthreshold.trans hthreshold'⟩

/-- There is a cutting of what was fed, and the packets carry its runs. -/
theorem exists_runs (connection : ConnectionId) (threshold : UInt64) (feed : List Feed) :
    ∃ runs, Cutting (Arrival.opens threshold) (Feed.arrivals false feed) runs ∧
      List.Forall₂ (Packet.Carries connection) runs (ofFeed connection threshold feed).packets := by
  obtain ⟨flushed, done, current, hfollows⟩ := (Follows.blank connection threshold).fed feed
  obtain ⟨hconnection, hthreshold⟩ := connection_fed { connection, threshold } feed
  have hcutting := hfollows.cutting
  have hpackets := hfollows.packets
  rw [hthreshold, List.nil_append] at hcutting
  rw [hconnection] at hpackets
  exact ⟨done ++ current, hcutting, hpackets⟩

/-- Every packet carries some run. -/
theorem exists_run_of_mem {connection : ConnectionId} {threshold : UInt64} {feed : List Feed}
    {p : Packet} (hp : p ∈ (ofFeed connection threshold feed).packets) :
    ∃ run, p.Carries connection run := by
  obtain ⟨runs, -, hpackets⟩ := exists_runs connection threshold feed
  have hall : List.Forall₂ (fun q run => (∃ run, q.Carries connection run) ∧
      q.Carries connection run) (ofFeed connection threshold feed).packets runs :=
    hpackets.flip.imp fun q run h => ⟨⟨run, h⟩, h⟩
  exact ((List.forall₂_and_left _ _).1 hall).1 p hp

/-- **The packets are the runs.**  For every feed of a new reconstruction, the chunks with bytes are
cut by the rule in one way and no other, and the packets carry the runs of this cutting one by one.
Whatever is fed later, the packets that are closed by then stay as they are. -/
theorem packets_are_runs (connection : ConnectionId) (threshold : UInt64) (feed : List Feed) :
    ∃ runs : List (List Arrival),
      (runs.flatten.map Arrival.chunk = feed.filterMap Feed.chunk? ∧
        Cutting (Arrival.opens threshold) (Feed.arrivals false feed) runs ∧
        ∀ other, Cutting (Arrival.opens threshold) (Feed.arrivals false feed) other →
          other = runs) ∧
      List.Forall₂ (Packet.Carries connection) runs (ofFeed connection threshold feed).packets ∧
      ∀ more, (ofFeed connection threshold feed).closed <+:
        (ofFeed connection threshold (feed ++ more)).closed := by
  obtain ⟨runs, hcutting, hpackets⟩ := exists_runs connection threshold feed
  refine ⟨runs, ⟨?_, hcutting, fun other hother => hcutting.unique hother⟩, hpackets, ?_⟩
  · rw [hcutting.flatten, Feed.chunks_arrivals]
  · intro more
    rw [ofFeed_append]
    exact closed_prefix_fed _ more

/-- Where the clock steps back, a pause is measured from where it had been: of the third chunk it is
3 and not 11, so the chunk goes with the others.  The last one finds the packet closed. -/
example :
    let sent := fun (bytes : List UInt8) (time : UInt64) =>
      Feed.append { direction := .sent, bytes, time, thread := ⟨1, none⟩ }
    (ofFeed ⟨⟨"db", 5432⟩, 0, ⟨1, none⟩, none⟩ 5
      [sent [1] 10, sent [2] 2, sent [3] 13, .flush,
        sent [4] 14]).packets.map Packet.payload = [[1, 2, 3], [4]] := by
  decide +kernel

end Reconstruction

end Wiretap
