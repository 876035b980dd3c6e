import Mathlib.Data.List.Induction
import Mathlib.Data.List.Nodup
import Wiretap.Proofs.Connections
import Wiretap.Proofs.Listing
/-!
# A report on connections, whatever the order of the identities

The counters of a window have no order of their own; a report on connections takes them as they are
given, and folds them one by one into an entry for each address and ordinal.  Nothing that a reader
of the report can rely on depends on that order.

An event **reports** a connection if it names the capped totals of the connection's identities and
shows one of them, with a call site if any of them has one (`Event.Reports`).  That leaves open which
identity is shown, and nothing else.

* `connections_standing` — the identity that stands for a connection is one of its own, and has a
  call site if one of them has; the invariant of the fold, taken from the last identity back;
* `connection_report_exact` — the events of an expectation are the reports of the connections it
  selects, in the order of their addresses and ordinals, and other orders of the same counters
  give the same report.
-/

namespace Wiretap

namespace Observation

instance : Std.TransCmp connectionOrder :=
  inferInstanceAs <| Std.TransCmp <|
    compareLex (compareLex (compareOn fun c : Address × UInt32 => c.1.host)
      (compareOn fun c => c.1.port)) (compareOn fun c => c.2)

instance : Std.LawfulEqCmp connectionOrder where
  eq_of_compare {a b} h := by
    obtain ⟨haddress, hordinal⟩ := Ordering.then_eq_eq.1 h
    exact Prod.ext (Address.eq_of_order haddress) (Std.LawfulEqOrd.eq_of_compare hordinal)

/-- Whether an identity of the connection has a call site. -/
def anyTrace (rows : List (ConnectionId × Stats)) (key : Address × UInt32) : Bool :=
  rows.any fun row => row.1.connection == key && row.1.trace.isSome

/-- One more row gives a connection a call site if the row has one. -/
theorem anyTrace_concat (rows : List (ConnectionId × Stats)) (row : ConnectionId × Stats)
    (key : Address × UInt32) :
    anyTrace (rows ++ [row]) key =
      (anyTrace rows key || (row.1.connection == key && row.1.trace.isSome)) := by
  rw [anyTrace, List.any_append, List.any_cons, List.any_nil, Bool.or_false, anyTrace]

/-- One more row is put to its connection. -/
theorem connections_concat (rows : List (ConnectionId × Stats)) (row : ConnectionId × Stats) :
    connections (rows ++ [row]) =
      (connections rows).alter row.1.connection (gather row.1 row.2) := by
  rw [connections, List.foldl_concat, connections]

/-- A connection without an entry has no identity, and so none with a call site. -/
theorem anyTrace_of_absent {rows : List (ConnectionId × Stats)} {key : Address × UInt32}
    (h : (connections rows).get? key = none) : anyTrace rows key = false := by
  have hnone : (rows.any fun row => row.1.connection == key) = false := by
    rw [← (connections_spec rows).contains, Table.contains_eq_isSome, h]
    rfl
  rw [List.any_eq_false] at hnone
  refine List.any_eq_false.2 fun row hrow => ?_
  rw [Bool.and_eq_true]
  exact fun hboth => hnone row hrow hboth.1

/-- Of the identity that stood for a connection and one more of its identities, one stands for it
now; it has a call site if one of the two has. -/
theorem gather_standing (id standing : ConnectionId) (stats total : Stats) :
    ((gather id stats (some (total, standing))).2 = standing ∨
        (gather id stats (some (total, standing))).2 = id) ∧
      (gather id stats (some (total, standing))).2.trace.isSome =
        (standing.trace.isSome || id.trace.isSome) := by
  rw [gather]
  cases hstanding : standing.trace with
  | none =>
    cases hid : id.trace with
    | none => simp [hstanding]
    | some site => simp [hid]
  | some site => simp [hstanding]

/-- **The identity that stands for a connection** is one of those that were put together, and it has
a call site exactly if one of them has.  By induction on the identities, from the last one back. -/
theorem connections_standing (rows : List (ConnectionId × Stats)) {key : Address × UInt32}
    {total : Stats} {id : ConnectionId} (h : (connections rows).get? key = some (total, id)) :
    (∃ row ∈ rows, row.1 = id) ∧ id.trace.isSome = anyTrace rows key := by
  induction rows using List.reverseRecOn generalizing total id with
  | nil => cases h
  | append_singleton rows row ih =>
    have hold : ∀ {other : ConnectionId}, (∃ r ∈ rows, r.1 = other) →
        ∃ r ∈ rows ++ [row], r.1 = other := by
      rintro other ⟨r, hr, hid⟩
      exact ⟨r, List.mem_append_left _ hr, hid⟩
    have hnew : ∃ r ∈ rows ++ [row], r.1 = row.1 :=
      ⟨row, List.mem_append_right _ List.mem_cons_self, rfl⟩
    rw [connections_concat] at h
    rw [anyTrace_concat]
    by_cases hkey : row.1.connection = key
    · subst hkey
      rw [Table.get?_alter_self, Option.some.injEq] at h
      rw [BEq.rfl, Bool.true_and]
      cases hbefore : (connections rows).get? row.1.connection with
      | none =>
        rw [hbefore] at h
        cases h
        rw [anyTrace_of_absent hbefore, Bool.false_or]
        exact ⟨hnew, rfl⟩
      | some entry =>
        obtain ⟨total', standing⟩ := entry
        obtain ⟨hmem, htrace⟩ := ih hbefore
        obtain ⟨hone, hsome⟩ := gather_standing row.1 standing row.2 total'
        rw [hbefore] at h
        have hid : (gather row.1 row.2 (some (total', standing))).2 = id := congrArg Prod.snd h
        rw [hid] at hone hsome
        refine ⟨?_, by rw [hsome, htrace]⟩
        rcases hone with rfl | rfl
        · exact hold hmem
        · exact hnew
    · have hne : (row.1.connection == key) = false := beq_eq_false_iff_ne.2 hkey
      rw [Table.get?_alter_other _ hne] at h
      obtain ⟨hmem, htrace⟩ := ih h
      rw [hne, Bool.false_and, Bool.or_false]
      exact ⟨hold hmem, htrace⟩

/-- A connection and its bytes, in the words of a report. -/
def connectionText (key : Address × UInt32) (sent received : UInt64) : String :=
  s!"Connection #{key.2} to {key.1.text} sent {sent} bytes and received {received} bytes"

end Observation

open Observation

/-- **An event reports a connection of some identities:** it names their totals, each capped at the
greatest word, and shows one of them, with a call site exactly if one of them has any. -/
structure Event.Reports (rows : List (ConnectionId × Stats)) (key : Address × UInt32)
    (event : Event) : Prop where
  description : event.description =
    connectionText key (capped (sumOf rows key .sent)) (capped (sumOf rows key .received))
  count : event.count = 1
  shown : ∃ row ∈ rows, row.1.connection = key ∧ row.1.owner = event.thread ∧
    row.1.trace = event.trace
  trace : event.trace.isSome = anyTrace rows key

namespace Event.Reports

variable {rows rows' : List (ConnectionId × Stats)} {key : Address × UInt32}

/-- The entry of a connection makes an event that reports it. -/
theorem of_entry {total : Stats} {id : ConnectionId}
    (h : (connections rows).get? key = some (total, id)) :
    Reports rows key (connectionEvent total id) := by
  have hspec := connections_spec rows
  have hkey := hspec.standing _ _ _ h
  have hsent : total.sent = capped (sumOf rows key .sent) := hspec.total _ _ _ h .sent
  have hreceived : total.received = capped (sumOf rows key .received) :=
    hspec.total _ _ _ h .received
  obtain ⟨⟨row, hrow, rfl⟩, htrace⟩ := connections_standing rows h
  refine ⟨?_, rfl, ⟨row, hrow, hkey, rfl, rfl⟩, htrace⟩
  subst hkey
  rw [← hsent, ← hreceived]
  rfl

/-- A report tells of identities, and the order in which they are given does not matter. -/
theorem of_perm (hperm : rows.Perm rows') {event : Event} (h : Reports rows key event) :
    Reports rows' key event where
  description := by
    have hsum : ∀ x, sumOf rows key x = sumOf rows' key x := fun x =>
      ((hperm.filter _).map _).sum_eq
    rw [h.description, hsum, hsum]
  count := h.count
  shown := by
    obtain ⟨row, hrow, hshown⟩ := h.shown
    exact ⟨row, hperm.mem_iff.1 hrow, hshown⟩
  trace := by
    rw [h.trace]
    exact hperm.any_eq

/-- Events that report one connection of the same identities, whatever the order of these, have the
same description and both a call site or both none. -/
theorem agree (hperm : rows.Perm rows') {event event' : Event} (h : Reports rows key event)
    (h' : Reports rows' key event') :
    (event.description, event.trace.isSome) = (event'.description, event'.trace.isSome) := by
  have hthere := h.of_perm hperm
  rw [hthere.description, h'.description, hthere.trace, h'.trace]

end Event.Reports

namespace Observation

/-- The connections of identities, in the order of a report. -/
def listed (rows : List (ConnectionId × Stats)) : List (Address × UInt32) :=
  ((connections rows).sorted connectionOrder).map Prod.fst

/-- The events of identities. -/
def reported (rows : List (ConnectionId × Stats)) : List Event :=
  ((connections rows).sorted connectionOrder).map fun row => connectionEvent row.2.1 row.2.2

variable (rows : List (ConnectionId × Stats))

/-- The connections are listed in order, each once. -/
theorem listed_rises : (listed rows).Pairwise fun a b => connectionOrder a b = .lt :=
  Table.sorted_keys_pairwise _ _

/-- A connection is listed exactly if there is a row of it. -/
theorem mem_listed_iff {key : Address × UInt32} :
    key ∈ listed rows ↔ ∃ row ∈ rows, row.1.connection = key := by
  have hperm := ((connections rows).sorted_perm connectionOrder).map Prod.fst
  rw [listed, hperm.mem_iff]
  show key ∈ (connections rows).keys ↔ _
  rw [Table.mem_keys_iff, (connections_spec rows).contains, List.any_eq_true]
  simp only [beq_iff_eq]

/-- One event for each connection, in the same order. -/
theorem reported_reports : List.Forall₂ (Event.Reports rows) (listed rows) (reported rows) := by
  rw [listed, reported, List.forall₂_map_left_iff, List.forall₂_map_right_iff, List.forall₂_same]
  intro row hrow
  obtain ⟨key, total, id⟩ := row
  exact .of_entry ((Table.mem_sorted_iff _ _).1 hrow)

/-- No more connections are reported than there are rows. -/
theorem length_reported_le : (reported rows).length ≤ rows.length := by
  have hnodup : (listed rows).Nodup := (listed_rises rows).nodup
  have hsub : listed rows ⊆ rows.map fun row => row.1.connection := by
    intro key hkey
    exact List.mem_map.2 ((mem_listed_iff rows).1 hkey)
  have hle := (List.subperm_of_subset hnodup hsub).length_le
  rw [List.length_map] at hle
  rw [← (reported_reports rows).length_eq]
  exact hle

variable {rows} {rows' : List (ConnectionId × Stats)}

/-- **The connections do not depend on the order of the identities:** they rise from each to the next,
and which there are is known from the identities. -/
theorem listed_perm (h : rows.Perm rows') : listed rows = listed rows' := by
  refine (listed_rises rows).eq_of_mem_iff (listed_rises rows') fun key => ?_
  rw [mem_listed_iff, mem_listed_iff]
  simp only [h.mem_iff]

/-- Nor does what is told of them.  Both reports go through the same connections, so they are compared
event by event. -/
theorem reported_perm (h : rows.Perm rows') :
    (reported rows).map (fun event => (event.description, event.trace.isSome)) =
      (reported rows').map fun event => (event.description, event.trace.isSome) := by
  have hreports := reported_reports rows
  have hreports' := reported_reports rows'
  rw [← listed_perm h] at hreports'
  generalize listed rows = keys at hreports hreports'
  generalize reported rows = events at hreports
  generalize reported rows' = events' at hreports'
  induction hreports generalizing events' with
  | nil =>
    rw [List.forall₂_nil_left_iff.1 hreports']
  | cons hevent _ ih =>
    obtain ⟨event', rest', hevent', hrest', rfl⟩ := List.forall₂_cons_left_iff.1 hreports'
    rw [List.map_cons, List.map_cons, hevent.agree h hevent', ih rest' hrest']

/-- Counters in another order are selected in another order. -/
theorem selectedSockets_perm {o o' : Observation} (hcreator : o.creator = o'.creator)
    (h : o.sockets.rows.Perm o'.sockets.rows) (matcher : AddressMatcher) (scope : Scope) :
    (o.selectedSockets matcher scope).Perm (o'.selectedSockets matcher scope) := by
  rw [selectedSockets, selectedSockets, hcreator]
  exact h.filter _

end Observation

/-- What a connection expectation finds is its report and the number of events in it. -/
theorem Finding.evaluate_reported {e : Expectation} {matcher : AddressMatcher}
    (h : e.target = .connections matcher) (o : Observation) :
    evaluate e o =
      let events := reported (o.selectedSockets matcher e.threads)
      { expectation := e
        observed := .ofNat events.length
        rows := none
        events := events
        failure := failureOf e (.ofNat events.length) none } := by
  unfold evaluate
  rw [h]
  rfl

/-- **A report on connections does not depend on the order of the counters.**  Let an expectation ask
for connections, and take the identities that have operations, that are connected to an address that
it asks for and that belong to a thread that it asks for.  The events are reports of the connections
that have such identities, and each tells of these identities alone; each connection has one, and they
rise by address and ordinal.  They are as many as are observed.  Whatever the order in which the
counters are gone through, the same number is observed, the expectation holds or fails as before, and
the events describe the same in the same order, with a call site or without. -/
theorem connection_report_exact (e : Expectation) (matcher : AddressMatcher)
    (htarget : e.target = .connections matcher) (o : Observation) :
    (∃ keys : List (Address × UInt32),
      (keys.Pairwise fun a b => connectionOrder a b = .lt) ∧
        (∀ key, key ∈ keys ↔ ∃ row ∈ o.sockets.rows, row.2.operations ≠ 0 ∧
          matcher.accepts row.1.address = true ∧
          e.threads.selects row.1.owner o.creator = true ∧ row.1.connection = key) ∧
        List.Forall₂ (Event.Reports (o.selectedSockets matcher e.threads)) keys
          (Finding.evaluate e o).events) ∧
      (Finding.evaluate e o).observed = .ofNat (Finding.evaluate e o).events.length ∧
      (o.sockets.size < 2 ^ 64 →
        (Finding.evaluate e o).observed.toNat = (Finding.evaluate e o).events.length) ∧
      ∀ sockets : Table ConnectionId Stats, sockets.rows.Perm o.sockets.rows →
        (Finding.evaluate e { o with sockets }).observed = (Finding.evaluate e o).observed ∧
        (Finding.evaluate e { o with sockets }).failure = (Finding.evaluate e o).failure ∧
        (Finding.evaluate e { o with sockets }).events.map
            (fun event => (event.description, event.trace.isSome)) =
          (Finding.evaluate e o).events.map
            fun event => (event.description, event.trace.isSome) := by
  rw [Finding.evaluate_reported htarget]
  refine ⟨⟨listed (o.selectedSockets matcher e.threads), listed_rises _, fun key => ?_,
    reported_reports _⟩, rfl, fun hsize => ?_, fun sockets hperm => ?_⟩
  · rw [mem_listed_iff]
    simp only [selectedSockets, List.mem_filter, Bool.and_eq_true, bne_iff_ne, and_assoc]
  · refine UInt64.toNat_ofNat_of_lt' (Nat.lt_of_le_of_lt ?_ hsize)
    exact (length_reported_le _).trans (List.length_filter_le _ _)
  · have hsame : ({ o with sockets } : Observation).creator = o.creator := rfl
    have hreported := reported_perm (selectedSockets_perm hsame hperm matcher e.threads)
    have hlength := congrArg List.length hreported
    rw [List.length_map, List.length_map] at hlength
    rw [Finding.evaluate_reported htarget]
    simp only [hlength]
    exact ⟨trivial, trivial, hreported⟩

/-- The counters of two connections.  One has three identities.  The other has two, and the second of
these has bytes and a call site but no operations. -/
def sharedByThree : List (ConnectionId × Stats) :=
  [(⟨⟨"cache", 1⟩, 0, ⟨2, none⟩, none⟩, { operations := 2, received := 5 }),
    (⟨⟨"cache", 1⟩, 0, ⟨3, none⟩, some "shop:3"⟩, { received := 4 }),
    (⟨⟨"db", 5432⟩, 1, ⟨1, none⟩, none⟩, { operations := 1, sent := 18446744073709551610 }),
    (⟨⟨"db", 5432⟩, 1, ⟨2, none⟩, some "shop:2"⟩, { operations := 1, sent := 9 }),
    (⟨⟨"db", 5432⟩, 1, ⟨3, none⟩, none⟩, { operations := 3, sent := 4 })]

/-- Two connections, by whatever thread. -/
def twoConnections : Expectation :=
  { target := .connections {}, count := .exact 2, rows := none, threads := .any }

/-- Gone through from the back, they make two events.  The bytes of the connection with three
identities are capped, and one of them gives it a call site; the identity without operations gives
the other connection neither bytes nor a call site. -/
theorem connection_report_exact_sharedByThree :
    let o : Observation := ⟨⟨1, none⟩, .empty, .ofList sharedByThree⟩
    let back : Table ConnectionId Stats := .ofList sharedByThree.reverse
    back.rows.Perm o.sockets.rows ∧ (Finding.evaluate twoConnections o).observed.toNat = 2 ∧
      (Finding.evaluate twoConnections { o with sockets := back }).failure = none ∧
      (Finding.evaluate twoConnections { o with sockets := back }).events.map
          (fun event => (event.description, event.trace.isSome)) =
        [("Connection #0 to cache:1 sent 0 bytes and received 5 bytes", false),
          ("Connection #1 to db:5432 sent 18446744073709551615 bytes and received 0 bytes",
            true)] := by
  intro o back
  have hback : back.rows.Perm o.sockets.rows := by
    show (Table.ofList sharedByThree.reverse).rows.Perm (Table.ofList sharedByThree).rows
    rw [Table.rows_ofList (by decide), Table.rows_ofList (by decide)]
    exact List.reverse_perm _
  have hevents : (Finding.evaluate twoConnections o).events.map
      (fun event => (event.description, event.trace.isSome)) =
        [("Connection #0 to cache:1 sent 0 bytes and received 5 bytes", false),
          ("Connection #1 to db:5432 sent 18446744073709551615 bytes and received 0 bytes",
            true)] := by
    rw [Finding.evaluate_reported rfl]
    show (reported (o.selectedSockets {} .any)).map _ = _
    rw [reported, Table.sorted, List.mergeSort_of_pairwise (by decide +kernel)]
    decide +kernel
  have hlength := congrArg List.length hevents
  rw [List.length_map] at hlength
  have hfailure : (Finding.evaluate twoConnections o).failure =
      Finding.failureOf twoConnections (.ofNat (Finding.evaluate twoConnections o).events.length)
        none := by
    rw [Finding.evaluate_reported rfl]
  rw [hlength] at hfailure
  obtain ⟨-, -, hcount, hsame⟩ := connection_report_exact twoConnections {} rfl o
  obtain ⟨-, hfailure', hevents'⟩ := hsame back hback
  refine ⟨hback, (hcount ?_).trans hlength, hfailure'.trans hfailure, hevents'.trans hevents⟩
  show (Table.ofList sharedByThree).rows.length < 2 ^ 64
  rw [Table.rows_ofList (by decide)]
  decide

end Wiretap
