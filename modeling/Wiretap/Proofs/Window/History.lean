import Wiretap.Proofs.Traffic.Runs
import Wiretap.Proofs.Traffic.Ties
import Wiretap.Proofs.Window.Restart
import Wiretap.Proofs.Window.Traversals
/-!
# A window on everything shows the whole ledger

The ledger can be asked directly, or through a spy.  These are different ways to an answer: the
ledger copies its counters and packets, while a spy takes differences from its baseline and cuts
the packets at its positions.  For a spy that was opened before anything was recorded **both ways
come to the same**, as long as the ledger is not cleared and no counter wraps.

* A difference from nothing is the counter itself, and it is left out only if it is zero.  No
  counter is, for each that exists counts an operation (`gains_empty`).
* The first position cuts nothing off, and connections without packets show in no report
  (`group_trafficSince_empty`).

A table has its rows in no order, and the spy and the ledger may each go through it in one of their
own (`Traversal`).  Counters are looked up by key, so that does not show in theirs.  It shows in a
report of packets in ties only, for the packets that are kept for a connection are its own: they come
of what was fed to it (`Fed`).
-/

namespace Wiretap

open Ledger Increment

/-! ## Counters -/

namespace Baseline

variable {κ : Type u} [BEq κ]

/-- What counters gained since there were none is what they count. -/
theorem gains_empty {now : Table κ Stats} (h : ∀ row ∈ now.rows, ¬ row.2.isZero = true) :
    gains now .empty = now := by
  have hrows : (gains now .empty).rows = now.rows := by
    show now.rows.filterMap (fun row => (if row.2.isZero = true then none else some row.2).map
      fun v => (row.1, v)) = now.rows
    refine (List.filterMap_congr fun row hrow => ?_).trans List.filterMap_some
    rw [if_neg (h row hrow)]
    rfl
  cases hgains : gains now .empty with
  | mk rows distinct =>
    rw [hgains] at hrows
    cases now
    cases hrows
    rfl

/-- A counter that was made anew counts an operation at least. -/
theorem not_isZero_of_mem [EquivBEq κ] {increments : List (Increment κ)}
    (hfits : Fits .empty increments) (honce : EachOnce increments) {row : κ × Stats}
    (hrow : row ∈ (countAll .empty increments).rows) : ¬ row.2.isZero = true := by
  have hget := Table.get?_of_mem_rows hrow
  rw [get?_countAll_empty hfits, counted] at hget
  by_cases hany : (increments.any fun i => i.key == row.1) = true
  · rw [if_pos hany, Option.some.injEq] at hget
    have hlt := hfits row.1 .operations
    rw [← hget]
    exact Stats.not_isZero_ofGain (one_le_total honce hany) (by omega)
  · rw [if_neg hany] at hget
    cases hget

end Baseline

namespace Ledger

/-- What no note changes stays as it is in a run. -/
theorem noteAll_same {α : Type} {s : Settings} {part : Ledger → α}
    (hnote : ∀ (l : Ledger) (h : Happening), h ≠ .cleared → part (l.note s h) = part l) (l : Ledger)
    {happenings : List Happening} (hcleared : .cleared ∉ happenings) :
    part (l.noteAll s happenings) = part l := by
  induction happenings generalizing l with
  | nil => rfl
  | cons h rest ih =>
    obtain ⟨hfirst, hrest⟩ := List.ne_and_not_mem_of_not_mem_cons hcleared
    rw [noteAll_cons, ih _ hrest, hnote l h hfirst.symm]

/-- Where statements are not monitored, none are counted. -/
theorem note_statements_of_unmonitored {s : Settings} (hsql : s.monitorSql = false) (l : Ledger)
    (h : Happening) (hcleared : h ≠ .cleared) : (l.note s h).statements = l.statements := by
  cases h with
  | statement c =>
    simp only [note, hsql]
    rfl
  | connect c =>
    simp only [note]
    split <;> rfl
  | transfer c =>
    simp only [note]
    split
    · split
      · rw [append_frame]
        rfl
      · rfl
    · rfl
  | closing stream id => rw [note, flush_frame]
  | cleared => exact absurd rfl hcleared

/-- Where sockets are not monitored, none are counted. -/
theorem note_sockets_of_unmonitored {s : Settings} (hmonitor : s.monitorSockets = false)
    (l : Ledger) (h : Happening) (hcleared : h ≠ .cleared) :
    (l.note s h).sockets = l.sockets := by
  cases h with
  | statement c =>
    simp only [note]
    split <;> rfl
  | connect c =>
    simp only [note, hmonitor]
    rfl
  | transfer c =>
    simp only [note, hmonitor]
    rfl
  | closing stream id => rw [note, flush_frame]
  | cleared => exact absurd rfl hcleared

end Ledger

namespace Application

variable {σ : Type} {a : Application σ} {actions : List (Action σ)}
  (hclear : Action.clear ∉ actions)

include hclear

/-- No statement counter is zero, whether statements are counted or not. -/
theorem statements_not_isZero (hempty : a.tap.ledger.statements = .empty)
    (hfits : Fits .empty (a.statementIncrements actions)) :
    ∀ row ∈ (a.run actions).tap.ledger.statements.rows, ¬ row.2.isZero = true := by
  cases hsql : a.tap.settings.monitorSql with
  | true =>
    rw [a.run_statements hsql hclear, hempty]
    intro row hrow
    exact Baseline.not_isZero_of_mem hfits (StatementCall.eachOnce_increments _ _) hrow
  | false =>
    have hsame := noteAll_same (note_statements_of_unmonitored hsql) a.tap.ledger.content
      (a.cleared_notMem hclear)
    rw [← run_ledger, content_statements, content_statements, hempty] at hsame
    rw [hsame]
    intro row hrow
    cases hrow

/-- No connection counter is zero, whether connections are watched or not. -/
theorem sockets_not_isZero (hempty : a.tap.ledger.sockets = .empty)
    (hfits : Fits .empty (a.socketIncrements actions)) :
    ∀ row ∈ (a.run actions).tap.ledger.sockets.rows, ¬ row.2.isZero = true := by
  cases hmonitor : a.tap.settings.monitorSockets with
  | true =>
    rw [a.run_sockets hmonitor hclear, hempty]
    intro row hrow
    exact Baseline.not_isZero_of_mem hfits (a.eachOnce_streamCalls actions) hrow
  | false =>
    have hsame := noteAll_same (note_sockets_of_unmonitored hmonitor) a.tap.ledger.content
      (a.cleared_notMem hclear)
    rw [← run_ledger, content_sockets, content_sockets, hempty] at hsame
    rw [hsame]
    intro row hrow
    cases hrow

end Application

/-! ## Packets -/

/-- Where no position was taken nothing is cut off. -/
theorem Reconstruction.packetsSince_empty (r : Reconstruction) (k : ConnectionId) :
    r.packetsSince (((Table.empty : Table ConnectionId Position).get? k).getD {}) = r.packets := by
  rw [Table.get?_empty, Option.getD_none]
  unfold packetsSince
  simp only [ite_self]
  rw [List.drop_zero, dropFront_zero]

/-- A list that is made of parts can be made of the parts that have anything. -/
theorem flatMap_filterMap {α β γ : Type} {f : α → Option β} {g : β → List γ} {g' : α → List γ}
    {l : List α} (h : ∀ a ∈ l, ((f a).map g).getD [] = g' a) :
    (l.filterMap f).flatMap g = l.flatMap g' := by
  induction l with
  | nil => rfl
  | cons a rest ih =>
    have hfirst := h a List.mem_cons_self
    have hrest := ih fun b hb => h b (List.mem_cons_of_mem a hb)
    rw [List.flatMap_cons, ← hfirst, ← hrest]
    cases hf : f a with
    | none => rw [List.filterMap_cons_none hf]; rfl
    | some b => rw [List.filterMap_cons_some hf, List.flatMap_cons]; rfl

namespace Ledger

section Report

variable (l : Ledger) (scope : Scope) (creator : Thread) (matcher : AddressMatcher)
  (grouping : Grouping)

/-- What a report selects of the packets of one connection. -/
def selectedOf (id : ConnectionId) (packets : List Packet) : List (GroupKey × Packet) :=
  if matcher.accepts id.address then
    (packets.filter fun p => scope.selects p.thread creator).map fun p =>
      (grouping.keyOf id p, grouping.erase p)
  else []

theorem selected_trafficSince_empty :
    Traffic.selected scope creator matcher grouping (l.trafficSince .empty) =
      l.traffic.rows.flatMap fun row =>
        selectedOf scope creator matcher grouping row.1 row.2.packets := by
  refine flatMap_filterMap fun row _ => ?_
  simp only [Reconstruction.packetsSince_empty]
  split
  · rename_i hempty
    rw [List.isEmpty_iff.1 hempty]
    unfold selectedOf
    split <;> rfl
  · rfl

theorem selected_packetsTo :
    Traffic.selected scope creator matcher grouping (l.packetsTo matcher) =
      l.traffic.rows.flatMap fun row =>
        selectedOf scope creator matcher grouping row.1 row.2.packets := by
  have hrows : (l.packetsTo matcher).rows = l.traffic.rows.filterMap fun row =>
      (some (row.1, row.2.packets)).filter fun row => matcher.accepts row.1.address :=
    List.filter_filterMap
  unfold Traffic.selected
  rw [hrows]
  refine flatMap_filterMap fun row _ => ?_
  rw [Option.filter_some, selectedOf]
  cases haccepts : matcher.accepts row.1.address with
  | true => simp [haccepts]
  | false => rfl

/-- **Packets since there were none.**  Connections without packets, and connections to addresses
that are not asked for, show in no group. -/
theorem group_trafficSince_empty (threshold : UInt64) :
    Traffic.group scope creator matcher grouping threshold (l.trafficSince .empty) =
      Traffic.group scope creator matcher grouping threshold (l.packetsTo matcher) := by
  unfold Traffic.group
  rw [selected_trafficSince_empty, selected_packetsTo]

end Report

/-! ## What is kept was fed -/

variable {l : Ledger}

/-- **What a happening does to the packets.**  A transfer that moves bytes appends them, and closing
a stream's traffic flushes it; clearing drops everything, and nothing else does anything. -/
theorem note_traffic_cases (s : Settings) (l : Ledger) (happened : Happening) :
    (l.note s happened).traffic = l.traffic ∨
      (∃ c : TransferCall, happened = .transfer c ∧ (c.chunk s).bytes.isEmpty = false ∧
        (l.note s happened).traffic = (l.append c.id (c.chunk s)).traffic) ∨
      (∃ id, (l.note s happened).traffic = (l.flush id).traffic) ∨
      happened = .cleared ∧ (l.note s happened).traffic = .empty := by
  cases happened with
  | statement c =>
    left
    simp only [note]
    split <;> rfl
  | connect c =>
    left
    simp only [note]
    split <;> rfl
  | transfer c =>
    simp only [note]
    split
    · split
      · rename_i hcapture
        rw [Bool.and_eq_true, Bool.not_eq_true'] at hcapture
        have hbytes : (c.chunk s).bytes.isEmpty = false := hcapture.2
        refine .inr (.inl ⟨c, rfl, hbytes, ?_⟩)
        rw [append, append, hbytes]
        rfl
      · exact .inl rfl
    · exact .inl rfl
  | closing stream id => exact .inr (.inr (.inl ⟨id, rfl⟩))
  | cleared => exact .inr (.inr (.inr ⟨rfl, rfl⟩))

/-- **Whatever the ledger keeps for a connection was fed** to a new reconstruction under its
identity. -/
def Fed (l : Ledger) : Prop :=
  ∀ k r, l.traffic.get? k = some r →
    ∃ id threshold feed, (id == k) = true ∧ r = Reconstruction.ofFeed id threshold feed

namespace Fed

theorem append (h : l.Fed) (id : ConnectionId) {chunk : Chunk}
    (hbytes : chunk.bytes.isEmpty = false) : (l.append id chunk).Fed := by
  intro k r hr
  rw [get?_append l id k hbytes] at hr
  by_cases hkey : (id == k) = true
  · rw [if_pos hkey, Option.some.injEq] at hr
    cases hkept : l.traffic.get? k with
    | none =>
      rw [hkept] at hr
      exact ⟨id, l.threshold, [.append chunk], hkey, hr.symm⟩
    | some kept =>
      obtain ⟨id', threshold, feed, hkey', rfl⟩ := h k kept hkept
      rw [hkept, Option.getD_some] at hr
      refine ⟨id', threshold, feed ++ [.append chunk], hkey', ?_⟩
      rw [← hr, Reconstruction.ofFeed_append]
      rfl
  · rw [if_neg hkey] at hr
    exact h k r hr

theorem flush (h : l.Fed) (id : ConnectionId) : (l.flush id).Fed := by
  intro k r hr
  rw [get?_flush] at hr
  by_cases hkey : (id == k) = true
  · rw [if_pos hkey] at hr
    obtain ⟨kept, hkept, rfl⟩ := Option.map_eq_some_iff.1 hr
    obtain ⟨id', threshold, feed, hkey', rfl⟩ := h k kept hkept
    refine ⟨id', threshold, feed ++ [.flush], hkey', ?_⟩
    rw [Reconstruction.ofFeed_append]
    rfl
  · rw [if_neg hkey] at hr
    exact h k r hr

theorem of_traffic {l' : Ledger} (h : l.Fed) (hsame : l'.traffic = l.traffic) : l'.Fed := by
  intro k r hr
  rw [hsame] at hr
  exact h k r hr

/-- No happening brings packets into the ledger that were not fed. -/
theorem note (h : l.Fed) (s : Settings) (happened : Happening) : (l.note s happened).Fed := by
  rcases l.note_traffic_cases s happened with
    hsame | ⟨c, -, hbytes, hsame⟩ | ⟨id, hsame⟩ | ⟨-, hempty⟩
  · exact h.of_traffic hsame
  · exact (h.append c.id hbytes).of_traffic hsame
  · exact (h.flush id).of_traffic hsame
  · intro k r hr
    rw [hempty] at hr
    cases hr

theorem noteAll (h : l.Fed) (s : Settings) (happenings : List Happening) :
    (l.noteAll s happenings).Fed := by
  induction happenings generalizing l with
  | nil => exact h
  | cons happened rest ih => exact ih (h.note s happened)

/-- The packets that are kept for a connection are packets of that connection. -/
theorem connection_of_mem (h : l.Fed) {row : ConnectionId × Reconstruction}
    (hrow : row ∈ l.traffic.rows) {p : Packet} (hp : p ∈ row.2.packets) :
    (p.connection == row.1) = true := by
  obtain ⟨id, threshold, feed, hkey, hfed⟩ := h row.1 row.2 (Table.get?_of_mem_rows hrow)
  rw [hfed] at hp
  obtain ⟨run, hcarries⟩ := Reconstruction.exists_run_of_mem hp
  rw [hcarries.connection]
  exact hkey

/-- Its packets are under the identities of their connections. -/
theorem labelled_packetsTo (h : l.Fed) (matcher : AddressMatcher) :
    Traffic.Labelled (l.packetsTo matcher) := by
  intro row hrow p hp
  obtain ⟨kept, hkept, hsome⟩ := List.mem_filterMap.1 (List.mem_filter.1 hrow).1
  obtain rfl : (kept.1, kept.2.packets) = row := Option.some.inj hsome
  exact h.connection_of_mem hkept hp

end Fed

end Ledger

/-! ## Windows -/

/-- **A window shows the whole ledger** if it answers as the ledger does.  Where both go through the
tables in the same order, the answers are equal.  Where each goes through them in an order of its own,
counters are still the same for every key, and reports of packets agree but for ties: among packets of
one time and different connections, and among groups equal in address, ordinal and first time. -/
structure Spy.ShowsHistory (s : Spy) (l : Ledger) : Prop where
  statements : ∀ scope removeTraces,
    s.executedStatements l scope removeTraces =
      l.executedStatements scope s.creator removeTraces
  sockets : ∀ scope matcher removeTraces,
    s.socketOperations l scope matcher removeTraces =
      l.socketOperations scope s.creator matcher removeTraces
  traffic : ∀ scope matcher grouping,
    s.networkTraffic l scope matcher grouping =
      l.networkTraffic scope s.creator matcher grouping
  statementsInAnyOrder : ∀ (t t' : Traversal) scope removeTraces k,
    (s.executedStatements (t.of l) scope removeTraces).get? k =
      ((t'.of l).executedStatements scope s.creator removeTraces).get? k
  socketsInAnyOrder : ∀ (t t' : Traversal) scope matcher removeTraces k,
    (s.socketOperations (t.of l) scope matcher removeTraces).get? k =
      ((t'.of l).socketOperations scope s.creator matcher removeTraces).get? k
  trafficInAnyOrder : ∀ (t t' : Traversal) scope matcher grouping,
    Traffic.AgreeButTies grouping l.threshold
      (s.networkTraffic (t.of l) scope matcher grouping)
      ((t'.of l).networkTraffic scope s.creator matcher grouping)

namespace Spy

variable {s : Spy} {l : Ledger}

/-- A window without a baseline observes what is counted. -/
theorem observe_of_empty (hbaseline : s.baseline = {})
    (hstatements : ∀ row ∈ l.statements.rows, ¬ row.2.isZero = true)
    (hsockets : ∀ row ∈ l.sockets.rows, ¬ row.2.isZero = true) :
    s.observe l = { creator := s.creator, statements := l.statements, sockets := l.sockets } := by
  rw [observe, hbaseline]
  show Observation.mk s.creator (Baseline.gains l.statements .empty)
    (Baseline.gains l.sockets .empty) = _
  rw [Baseline.gains_empty hstatements, Baseline.gains_empty hsockets]

/-- A window without a baseline reports what packets there are. -/
theorem networkTraffic_of_empty (hbaseline : s.baseline = {}) (scope : Scope)
    (matcher : AddressMatcher) (grouping : Grouping) :
    s.networkTraffic l scope matcher grouping =
      l.networkTraffic scope s.creator matcher grouping := by
  rw [networkTraffic, hbaseline, Ledger.networkTraffic]
  exact l.group_trafficSince_empty scope s.creator matcher grouping l.threshold

/-- A window without a baseline shows what the ledger has. -/
theorem showsHistory (hbaseline : s.baseline = {}) (hfed : l.Fed)
    (hstatements : ∀ row ∈ l.statements.rows, ¬ row.2.isZero = true)
    (hsockets : ∀ row ∈ l.sockets.rows, ¬ row.2.isZero = true) : s.ShowsHistory l := by
  have hobserve : s.observe l =
      { creator := s.creator, statements := l.statements, sockets := l.sockets } :=
    observe_of_empty hbaseline hstatements hsockets
  have hobserve' : ∀ t : Traversal, s.observe (t.of l) =
      { creator := s.creator, statements := (t.of l).statements, sockets := (t.of l).sockets } :=
    fun t => observe_of_empty hbaseline
      (fun row hrow => hstatements row ((t.of_statements_perm l).mem_iff.1 hrow))
      (fun row hrow => hsockets row ((t.of_sockets_perm l).mem_iff.1 hrow))
  refine ⟨?_, ?_, networkTraffic_of_empty hbaseline, ?_, ?_, ?_⟩
  · intro scope removeTraces
    rw [executedStatements, hobserve, Ledger.executedStatements]
  · intro scope matcher removeTraces
    rw [socketOperations, hobserve, Ledger.socketOperations]
  · intro t t' scope removeTraces k
    rw [executedStatements, hobserve' t]
    exact Query.get?_regroup_perm _ ((t.statements_perm_of l t').filter _) k
  · intro t t' scope matcher removeTraces k
    rw [socketOperations, hobserve' t]
    exact Query.get?_regroup_perm _ ((t.sockets_perm_of l t').filter _) k
  · intro t t' scope matcher grouping
    have hlabelled : Traffic.Labelled ((t.of l).packetsTo matcher) :=
      (hfed.labelled_packetsTo matcher).of_perm
        (((t.of_traffic_perm l).symm.filterMap _).filter _)
    rw [networkTraffic_of_empty hbaseline]
    exact Traffic.group_of_perm scope s.creator matcher grouping hlabelled
      (t.packetsTo_perm_of l t' matcher) l.threshold

end Spy

namespace Application

variable {σ : Type}

/-- **A window on everything shows the whole ledger.**  Let a spy be opened or reset before anything
was recorded, let the ledger not be cleared afterwards, and let no counter wrap.  Then the spy
answers every question as the ledger does when the thread that opened the spy asks it, in whatever
orders the two go through the tables: counters are equal, and reports of packets agree but for ties. -/
theorem window_shows_history {a : Application σ} {actions : List (Action σ)} {s : Spy}
    (hstatements : a.tap.ledger.statements = .empty) (hsockets : a.tap.ledger.sockets = .empty)
    (htraffic : a.tap.ledger.traffic = .empty) (hbegins : s.BeginsAt a.tap.ledger)
    (hclear : Action.clear ∉ actions)
    (hfitsStatements : Fits .empty (a.statementIncrements actions))
    (hfitsSockets : Fits .empty (a.socketIncrements actions)) :
    s.ShowsHistory (a.run actions).tap.ledger := by
  have hbaseline : s.baseline = {} := by
    have hpositions : a.tap.ledger.positions = .empty := by
      rw [Ledger.positions, htraffic]
      rfl
    rw [hbegins.baseline, Baseline.of, hstatements, hsockets, hpositions]
  have hfed : (a.run actions).tap.ledger.Fed := by
    have hblank : a.tap.ledger.content.Fed := by
      intro k r hr
      rw [content_traffic, htraffic] at hr
      cases hr
    have hrun := hblank.noteAll a.tap.settings (a.happenings actions)
    rw [← run_ledger] at hrun
    exact hrun
  exact Spy.showsHistory hbaseline hfed
    (statements_not_isZero hclear hstatements hfitsStatements)
    (sockets_not_isZero hclear hsockets hfitsSockets)

/-- Statements of two threads, then a connection on which two threads talk. -/
def shopAndTalk : List (Action Unit) := selectTwice ++ openPacket ++ talkOn

/-- The spy of the first thread shows what the ledger has of them. -/
theorem window_shows_history_shopAndTalk :
    (Spy.begin ⟨1, none⟩ ticking.tap.ledger).ShowsHistory (ticking.run shopAndTalk).tap.ledger ∧
      ((ticking.run shopAndTalk).tap.ledger.executedStatements .others ⟨1, none⟩ true).size =
        1 := by
  have hfitsStatements : Fits (countAll .empty []) (ticking.statementIncrements shopAndTalk) := by
    refine Ledger.fits_of_sum_lt fun x => ?_
    cases x <;> decide +kernel
  have hfitsSockets : Fits (countAll .empty []) (ticking.socketIncrements shopAndTalk) := by
    refine Ledger.fits_of_sum_lt fun x => ?_
    cases x <;> decide +kernel
  refine ⟨?_, by decide +kernel⟩
  exact window_shows_history (a := ticking) rfl rfl rfl (.begin ⟨1, none⟩)
    (by simp [shopAndTalk, selectTwice, openPacket, talkOn]) hfitsStatements hfitsSockets

end Application

end Wiretap
