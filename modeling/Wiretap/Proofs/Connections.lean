import Wiretap.Proofs.Gains
/-!
# Identities are put together into connections

A report on connections goes through the identities that it selects, and keeps one entry for each
address and ordinal.  An entry has the total of its identities, capped at the greatest word, and one
identity that stands for it.

`connections_spec` says so of the finished table.  The invariant of the fold is `Folds`: the table
so far is what the rows so far come to.
-/

namespace Wiretap

/-- Capping on the way does not change a capped total. -/
theorem cappedAdd_capped (n : Nat) (w : UInt64) : cappedAdd (capped n) w = capped (n + w.toNat) := by
  rw [← UInt64.toNat_inj, toNat_cappedAdd, toNat_capped, toNat_capped]
  omega

namespace Observation

/-- What rows that belong to one connection come to in one quantity. -/
def sumOf (rows : List (ConnectionId × Stats)) (key : Address × UInt32) (x : Stats.Field) : Nat :=
  ((rows.filter fun row => row.1.connection == key).map fun row => (row.2.get x).toNat).sum

/-- What a table of connections says about the rows that were folded into it. -/
structure Folds (rows : List (ConnectionId × Stats))
    (table : Table (Address × UInt32) (Stats × ConnectionId)) : Prop where
  contains : ∀ key, table.contains key = rows.any fun row => row.1.connection == key
  standing : ∀ key total id, table.get? key = some (total, id) → id.connection = key
  total : ∀ key total id, table.get? key = some (total, id) →
    ∀ x, total.get x = capped (sumOf rows key x)

/-- One more row adds what it has, if it is of the connection. -/
theorem sumOf_append (rows : List (ConnectionId × Stats)) (row : ConnectionId × Stats)
    (key : Address × UInt32) (x : Stats.Field) :
    sumOf (rows ++ [row]) key x =
      sumOf rows key x + if (row.1.connection == key) = true then (row.2.get x).toNat else 0 := by
  by_cases h : (row.1.connection == key) = true
  · simp [sumOf, h]
  · simp [sumOf, h]

/-- A connection of which there is no row has nothing. -/
theorem sumOf_eq_zero {rows : List (ConnectionId × Stats)} {key : Address × UInt32}
    (h : (rows.any fun row => row.1.connection == key) = false) (x : Stats.Field) :
    sumOf rows key x = 0 := by
  have hempty : rows.filter (fun row => row.1.connection == key) = [] := by
    rw [List.any_eq_false] at h
    exact List.filter_eq_nil_iff.2 h
  rw [sumOf, hempty]
  rfl

/-- One more identity. -/
theorem Folds.step {rows : List (ConnectionId × Stats)}
    {table : Table (Address × UInt32) (Stats × ConnectionId)} (h : Folds rows table)
    (row : ConnectionId × Stats) :
    Folds (rows ++ [row]) (table.alter row.1.connection (gather row.1 row.2)) := by
  have hcontains : ∀ key, (table.alter row.1.connection (gather row.1 row.2)).contains key =
      (rows ++ [row]).any fun row => row.1.connection == key := by
    intro key
    rw [List.any_append, ← h.contains, Table.contains_eq_isSome, Table.contains_eq_isSome]
    by_cases hkey : row.1.connection = key
    · subst hkey
      rw [Table.get?_alter_self]
      simp
    · have hne : (row.1.connection == key) = false := beq_eq_false_iff_ne.2 hkey
      rw [Table.get?_alter_other _ hne]
      simp [hne]
  have hget : ∀ key total id,
      (table.alter row.1.connection (gather row.1 row.2)).get? key = some (total, id) →
        id.connection = key ∧ ∀ x, total.get x = capped (sumOf (rows ++ [row]) key x) := by
    intro key total id hfound
    by_cases hkey : row.1.connection = key
    · subst hkey
      rw [Table.get?_alter_self, Option.some.injEq] at hfound
      cases hold : table.get? row.1.connection with
      | none =>
        -- the first identity of its connection: no row before it counts for the key
        rw [hold] at hfound
        cases hfound
        refine ⟨rfl, fun x => ?_⟩
        have hnone : (rows.any fun other => other.1.connection == row.1.connection) = false := by
          rw [← h.contains, Table.contains_eq_isSome, hold]
          rfl
        rw [Stats.get_plus, Stats.get_zero, sumOf_append, if_pos BEq.rfl, sumOf_eq_zero hnone]
        exact cappedAdd_capped 0 _
      | some old =>
        obtain ⟨total', standing⟩ := old
        rw [hold] at hfound
        cases hfound
        refine ⟨?_, fun x => ?_⟩
        -- whichever of the two identities is shown, both are of the one connection
        · split
          · rfl
          · exact h.standing _ _ _ hold
        · rw [Stats.get_plus, h.total _ _ _ hold x, sumOf_append, if_pos BEq.rfl]
          exact cappedAdd_capped _ _
    · have hne : (row.1.connection == key) = false := beq_eq_false_iff_ne.2 hkey
      rw [Table.get?_alter_other _ hne] at hfound
      refine ⟨h.standing _ _ _ hfound, fun x => ?_⟩
      rw [sumOf_append, hne, h.total _ _ _ hfound x]
      rfl
  exact ⟨hcontains, fun key total id hfound => (hget key total id hfound).1,
    fun key total id hfound => (hget key total id hfound).2⟩

/-- **The fold of a report.**  The connections of identities are those that the identities belong
to, each with the capped total of its identities. -/
theorem connections_spec (rows : List (ConnectionId × Stats)) : Folds rows (connections rows) := by
  have general : ∀ (rest done : List (ConnectionId × Stats))
      (table : Table (Address × UInt32) (Stats × ConnectionId)), Folds done table →
      Folds (done ++ rest)
        (rest.foldl (fun table row => table.alter row.1.connection (gather row.1 row.2)) table) := by
    intro rest
    induction rest with
    | nil =>
      intro done table h
      rw [List.append_nil]
      exact h
    | cons row rest ih =>
      intro done table h
      have hstep := ih (done ++ [row]) _ (h.step row)
      rw [List.append_assoc] at hstep
      exact hstep
  refine general rows [] .empty ⟨fun key => rfl, ?_, ?_⟩
  · intro key total id hfound
    cases hfound
  · intro key total id hfound
    cases hfound

end Observation

namespace Finding

/-- What a connection expectation observes are the folded connections, and each has an event. -/
theorem evaluate_connections {e : Expectation} {matcher : AddressMatcher}
    (h : e.target = .connections matcher) (o : Observation) :
    (evaluate e o).observed =
        .ofNat (Observation.connections (o.selectedSockets matcher e.threads)).keys.length ∧
      ((evaluate e o).events.map Event.description).Perm
        ((Observation.connections (o.selectedSockets matcher e.threads)).rows.map fun row =>
          (Observation.connectionEvent row.2.1 row.2.2).description) := by
  unfold evaluate
  rw [h]
  refine ⟨?_, ?_⟩
  · show UInt64.ofNat (List.length (List.map _ (Table.sorted _ _))) = _
    rw [List.length_map, Table.sorted, List.length_mergeSort, Table.keys, List.length_map]
  · show (List.map _ (List.map _ (Table.sorted _ _))).Perm _
    rw [List.map_map, Table.sorted]
    exact (List.mergeSort_perm _ _).map _

end Finding

end Wiretap
