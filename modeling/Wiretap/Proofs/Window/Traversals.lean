import Wiretap.Ledger.History
import Wiretap.Proofs.Connections.Events
import Wiretap.Proofs.Window.Statements
/-!
# Traversals

The tables of a ledger have no order.  Whoever reads them goes through the rows in some order, and
whoever reads them again, even at the same moment, may go through them in another.  A **traversal**
is one such order: it moves the rows of every table, and neither loses any nor makes up any.

What an expectation comes to is read off counters, so it depends on the traversal.  It does so in two
points only: in the order among events of one description, and in which of its identities stands for
a connection.  Findings that differ in nothing else are **alike** (`Finding.Alike`).

* `Spy.finding_alike` — two traversals of one ledger give findings that are alike.
-/

namespace Wiretap

/-- The table with its rows in another order. -/
def Table.reordered {κ : Type u} {ν : Type v} [BEq κ] [PartialEquivBEq κ] (t : Table κ ν)
    (order : List (κ × ν) → List (κ × ν)) (h : ∀ rows, (order rows).Perm rows) : Table κ ν :=
  ⟨order t.rows, distinct_of_perm (h t.rows).symm t.distinct⟩

/-- **An order in which the tables of a ledger are gone through.** -/
structure Traversal where
  statements : List (StatementId × Stats) → List (StatementId × Stats)
  sockets : List (ConnectionId × Stats) → List (ConnectionId × Stats)
  traffic : List (ConnectionId × Reconstruction) → List (ConnectionId × Reconstruction)
  statements_perm : ∀ rows, (statements rows).Perm rows
  sockets_perm : ∀ rows, (sockets rows).Perm rows
  traffic_perm : ∀ rows, (traffic rows).Perm rows

namespace Traversal

/-- The rows in the order in which they were made. -/
def asMade : Traversal := ⟨id, id, id, .refl, .refl, .refl⟩

/-- The rows from the last one back. -/
def backwards : Traversal :=
  ⟨List.reverse, List.reverse, List.reverse, List.reverse_perm, List.reverse_perm,
    List.reverse_perm⟩

/-- The ledger as a traversal finds it. -/
def of (t : Traversal) (l : Ledger) : Ledger :=
  { l with
    statements := l.statements.reordered t.statements t.statements_perm
    sockets := l.sockets.reordered t.sockets t.sockets_perm
    traffic := l.traffic.reordered t.traffic t.traffic_perm }

variable (t : Traversal) (l : Ledger)

/-- A traversal finds the statement counters that there are. -/
theorem of_statements_perm : (t.of l).statements.rows.Perm l.statements.rows :=
  t.statements_perm l.statements.rows

/-- A traversal finds the connection counters that there are. -/
theorem of_sockets_perm : (t.of l).sockets.rows.Perm l.sockets.rows :=
  t.sockets_perm l.sockets.rows

/-- A traversal finds the packets that there are. -/
theorem of_traffic_perm : (t.of l).traffic.rows.Perm l.traffic.rows :=
  t.traffic_perm l.traffic.rows

/-- Any two traversals find the same statement counters. -/
theorem statements_perm_of (t' : Traversal) :
    (t.of l).statements.rows.Perm (t'.of l).statements.rows :=
  (t.of_statements_perm l).trans (t'.of_statements_perm l).symm

/-- Any two traversals find the same connection counters. -/
theorem sockets_perm_of (t' : Traversal) : (t.of l).sockets.rows.Perm (t'.of l).sockets.rows :=
  (t.of_sockets_perm l).trans (t'.of_sockets_perm l).symm

/-- Any two traversals find the same packets to the addresses that are asked for. -/
theorem packetsTo_perm_of (t' : Traversal) (matcher : AddressMatcher) :
    ((t.of l).packetsTo matcher).rows.Perm ((t'.of l).packetsTo matcher).rows :=
  (((t.of_traffic_perm l).trans (t'.of_traffic_perm l).symm).filterMap _).filter _

end Traversal

/-! ## What a finding has of the order -/

/-- **Findings on an observation are alike** if they differ at most in what the order of the counters
decides.  The events come in the order of their descriptions, and those of one description in any
order; an event of a connection tells of the same connection, and shows any of its identities, but
one with a call site if there is any. -/
structure Finding.Alike (o : Observation) (f g : Finding) : Prop where
  expectation : f.expectation = g.expectation
  observed : f.observed = g.observed
  rows : f.rows = g.rows
  failure : f.failure = g.failure
  descriptions : f.events.map Event.description = g.events.map Event.description
  statements : ∀ kind, f.expectation.target = .statements kind → f.events.Perm g.events
  connections : ∀ matcher, f.expectation.target = .connections matcher →
    ∃ keys, List.Forall₂ (Event.Reports (o.selectedSockets matcher f.expectation.threads)) keys
        f.events ∧
      List.Forall₂ (Event.Reports (o.selectedSockets matcher f.expectation.threads)) keys g.events

/-- What the order of the counters decides does not depend on the order in which the observation has
them. -/
theorem Finding.Alike.of_perm {o o' : Observation} {f g : Finding} (h : f.Alike o g)
    (hcreator : o.creator = o'.creator) (hsockets : o.sockets.rows.Perm o'.sockets.rows) :
    f.Alike o' g where
  expectation := h.expectation
  observed := h.observed
  rows := h.rows
  failure := h.failure
  descriptions := h.descriptions
  statements := h.statements
  connections matcher htarget := by
    obtain ⟨keys, hf, hg⟩ := h.connections matcher htarget
    have hselected :=
      Observation.selectedSockets_perm hcreator hsockets matcher f.expectation.threads
    exact ⟨keys, hf.imp fun _ _ hreport => hreport.of_perm hselected,
      hg.imp fun _ _ hreport => hreport.of_perm hselected⟩

/-- Sums of words do not depend on the order. -/
theorem sumWords_perm {words words' : List UInt64} (h : words.Perm words') :
    sumWords words = sumWords words' := by
  refine h.foldr_eq' (fun a _ b _ c => ?_) 0
  rw [← UInt64.add_assoc, ← UInt64.add_assoc, UInt64.add_comm a b]

instance : Std.TransCmp Event.order :=
  inferInstanceAs <| Std.TransCmp <| compareOn Event.description

/-- Events that are put in order describe the same things in the same order, however they came. -/
theorem Event.descriptions_mergeSort {events events' : List Event} (h : events.Perm events') :
    (events.mergeSort fun a b => (a.order b).isLE).map description =
      (events'.mergeSort fun a b => (a.order b).isLE).map description := by
  have hsorted : ∀ l : List Event,
      ((l.mergeSort fun a b => (a.order b).isLE).map description).Pairwise
        fun a b => (compare a b).isLE = true := fun l =>
    List.pairwise_map.2 (Table.pairwise_mergeSort_isLE order l)
  have hperm : ((events.mergeSort fun a b => (a.order b).isLE).map description).Perm
      ((events'.mergeSort fun a b => (a.order b).isLE).map description) :=
    ((List.mergeSort_perm _ _).trans (h.trans (List.mergeSort_perm _ _).symm)).map description
  refine hperm.eq_of_pairwise ?_ (hsorted events) (hsorted events')
  intro a b _ _ hab hba
  exact Std.LawfulEqOrd.eq_of_compare (Std.OrientedCmp.isLE_antisymm hab hba)

/-- Statement counters in another order are selected in another order. -/
theorem Observation.selectedStatements_perm {o o' : Observation} (hcreator : o.creator = o'.creator)
    (h : o.statements.rows.Perm o'.statements.rows) (kind : StatementKind) (scope : Scope) :
    (o.selectedStatements kind scope).Perm (o'.selectedStatements kind scope) := by
  rw [selectedStatements, selectedStatements, hcreator]
  exact h.filter _

/-- Statements that are gone through in the order of their descriptions are told of as they come. -/
theorem Finding.events_of_pairwise {e : Expectation} {kind : StatementKind}
    (h : e.target = .statements kind) {o : Observation}
    (hsorted : ((o.selectedStatements kind e.threads).map Observation.statementEvent).Pairwise
      fun a b => (a.order b).isLE = true) :
    (evaluate e o).events =
      (o.selectedStatements kind e.threads).map Observation.statementEvent := by
  rw [evaluate_selected h]
  exact List.mergeSort_of_pairwise hsorted

/-- **Observations with the same counters give findings that are alike.** -/
theorem Finding.evaluate_alike {o o' : Observation} (hcreator : o.creator = o'.creator)
    (hstatements : o.statements.rows.Perm o'.statements.rows)
    (hsockets : o.sockets.rows.Perm o'.sockets.rows) (e : Expectation) :
    (evaluate e o).Alike o (evaluate e o') := by
  cases htarget : e.target with
  | statements kind =>
    have hselected :=
      Observation.selectedStatements_perm hcreator hstatements kind e.threads
    have hobserved := sumWords_perm (hselected.map fun row => row.2.operations)
    have hrows := sumWords_perm (hselected.map fun row => row.2.rows)
    have hevents := hselected.map Observation.statementEvent
    rw [evaluate_selected htarget, evaluate_selected htarget]
    simp only [hobserved, hrows]
    exact
      { expectation := rfl
        observed := rfl
        rows := rfl
        failure := rfl
        descriptions := Event.descriptions_mergeSort hevents
        statements := fun _ _ =>
          (List.mergeSort_perm _ _).trans (hevents.trans (List.mergeSort_perm _ _).symm)
        connections := fun _ hother => by
          rw [htarget] at hother
          cases hother }
  | connections matcher =>
    have hselected := Observation.selectedSockets_perm hcreator hsockets matcher e.threads
    have hreported := Observation.reported_perm hselected
    have hlength := congrArg List.length hreported
    have hdescriptions := congrArg (List.map Prod.fst) hreported
    rw [List.length_map, List.length_map] at hlength
    rw [List.map_map, List.map_map] at hdescriptions
    rw [evaluate_reported htarget, evaluate_reported htarget]
    simp only [hlength]
    exact
      { expectation := rfl
        observed := rfl
        rows := rfl
        failure := rfl
        descriptions := hdescriptions
        statements := fun _ hother => by
          rw [htarget] at hother
          cases hother
        connections := fun other hother => by
          obtain rfl : matcher = other := by
            rw [htarget] at hother
            exact Target.connections.inj hother
          have hreports := Observation.reported_reports (o'.selectedSockets matcher e.threads)
          rw [← Observation.listed_perm hselected] at hreports
          exact ⟨_, Observation.reported_reports _,
            hreports.imp fun _ _ hreport => hreport.of_perm hselected.symm⟩ }

/-- **The order in which a ledger is read shows in no more than ties.**  Two traversals of one ledger
through one spy give findings that are alike. -/
theorem Spy.finding_alike (s : Spy) (l : Ledger) (t t' : Traversal) (e : Expectation) :
    (Finding.evaluate e (s.observe (t.of l))).Alike (s.observe l)
      (Finding.evaluate e (s.observe (t'.of l))) := by
  have hstatements : (s.observe (t.of l)).statements.rows.Perm
      (s.observe (t'.of l)).statements.rows := (t.statements_perm_of l t').filterMap _
  have hsockets : (s.observe (t.of l)).sockets.rows.Perm (s.observe (t'.of l)).sockets.rows :=
    (t.sockets_perm_of l t').filterMap _
  have halike := Finding.evaluate_alike
    (show (s.observe (t.of l)).creator = (s.observe (t'.of l)).creator from rfl)
    hstatements hsockets e
  exact halike.of_perm rfl ((t.of_sockets_perm l).filterMap _)

end Wiretap
