import Wiretap.Proofs.Questions
import Wiretap.Proofs.Window.Agreement
/-!
# Totals of rows and executions wrap

Counters that fall together in an answer are added up with a cap.  Three other totals on the same
way are not: the rows of a batch, what an expectation observes, and the executions of a kind in a
window.  These are plain sums of words, so they are the true sums **modulo `2 ^ 64`**.

`WrapsAround` says what that comes to.  The total is right as long as the true sum is a word, and
beyond that it is what a cap would have made of it only where the sum happens to leave the greatest
word.  The executions are capped in groups before they are added up, so what wraps there is the sum
of the capped groups (`Query.WrapsInGroups`).

`totals_wrap` puts the three together.  A batch of two parts with `2 ^ 63` rows each has none, and
passes for one with few (`huge_passes_for_small`).
-/

namespace Wiretap

/-- How a word that is the total of some numbers stands to their sum. -/
structure WrapsAround (sum : Nat) (total : UInt64) : Prop where
  wrapped : total.toNat = sum % 2 ^ 64
  /-- A total with a cap would be the same only here. -/
  capped_iff : total = capped sum ↔ sum < 2 ^ 64 ∨ sum % 2 ^ 64 = 2 ^ 64 - 1

namespace WrapsAround

theorem ofNat (sum : Nat) : WrapsAround sum (.ofNat sum) := by
  have hwrapped : (UInt64.ofNat sum).toNat = sum % 2 ^ 64 := UInt64.toNat_ofNat'
  refine ⟨hwrapped, ?_⟩
  rw [← UInt64.toNat_inj, hwrapped, toNat_capped, toNat_greatest]
  omega

theorem sumWords (words : List UInt64) :
    WrapsAround (words.map UInt64.toNat).sum (Wiretap.sumWords words) := by
  rw [sum_words]
  exact ofNat _

/-- The total of some of the rows of a table. -/
theorem sumRows {κ : Type u} (rows : List (κ × Stats)) (word : Stats → UInt64) :
    WrapsAround (rows.map fun row => (word row.2).toNat).sum
      (Wiretap.sumWords (rows.map fun row => word row.2)) := by
  have h := sumWords (rows.map fun row => word row.2)
  rw [List.map_map] at h
  exact h

variable {sum : Nat} {total : UInt64}

/-- A bound that the total keeps and the sum breaks shows that the total has wrapped. -/
theorem le_of_bound (h : WrapsAround sum total) {r : Range} (hin : r.contains total = true)
    (hbeyond : r.greatest.toNat < sum) : 2 ^ 64 ≤ sum := by
  have hle : total ≤ r.greatest := by
    simp only [Range.contains, Bool.and_eq_true, decide_eq_true_eq] at hin
    exact hin.2
  have htotal := UInt64.le_iff_toNat_le.1 hle
  rw [h.wrapped] at htotal
  by_contra hsum
  rw [Nat.mod_eq_of_lt (by omega)] at htotal
  omega

end WrapsAround

/-! ## What an expectation observes -/

namespace Finding

/-- Nothing fails exactly if the number and the rows are in their ranges. -/
theorem failureOf_isNone_iff (e : Expectation) (observed rows : UInt64) :
    (failureOf e observed (some rows)).isNone = true ↔
      e.count.contains observed = true ∧
        ∀ range, e.rows = some range → range.contains rows = true := by
  unfold failureOf
  cases hcount : e.count.contains observed with
  | false => simp
  | true =>
    cases hrows : e.rows with
    | none => simp
    | some range => cases hrange : range.contains rows <;> simp [hrange]

end Finding

/-! ## The executions of a kind -/

namespace Query

/-- The executions of a kind that counters have together. -/
def executionsIn (rows : List (StatementId × Stats)) (kind : StatementKind) : Nat :=
  ((rows.filter fun row => kind.covers row.1.kind).map fun row => row.2.operations.toNat).sum

/-- How the total over an answer stands to the counters that the answer is made of: those of one
key are added up with a cap, and the sum of these wraps. -/
structure WrapsInGroups (rekey : StatementId → StatementId) (rows : List (StatementId × Stats))
    (kind : StatementKind) (total : UInt64) : Prop where
  /-- A group is the capped sum of what falls together in it. -/
  groups : ∀ group ∈ (regroup rekey rows).rows, group.2.operations =
    capped ((rows.filter fun row => rekey row.1 == group.1).map fun row =>
      row.2.operations.toNat).sum
  wrapped : total.toNat = executionsIn (regroup rekey rows).rows kind % 2 ^ 64
  /-- The capped total of the counters would be the same only here. -/
  capped_iff : total = capped (executionsIn rows kind) ↔
    executionsIn rows kind < 2 ^ 64 ∨
      executionsIn (regroup rekey rows).rows kind % 2 ^ 64 = 2 ^ 64 - 1

/-- A group has the operations of its rows, up to the greatest number. -/
theorem operations_regroup (rekey : StatementId → StatementId) {rows : List (StatementId × Stats)}
    {group : StatementId × Stats} (hgroup : group ∈ (regroup rekey rows).rows) :
    group.2.operations =
      capped ((rows.filter fun row => rekey row.1 == group.1).map fun row =>
        row.2.operations.toNat).sum := by
  have hfound := get?_regroup rekey rows group.1
  rw [Table.get?_of_mem_rows hgroup] at hfound
  split at hfound
  · cases hfound
  · rw [Option.some.injEq] at hfound
    rw [hfound]
    exact Stats.get_foldl_plus _ .operations

/-- The executions of a kind wrap around what its groups have together. -/
theorem wrapsInGroups_executions {rekey : StatementId → StatementId}
    (hkind : ∀ id, (rekey id).kind = id.kind) (rows : List (StatementId × Stats))
    (kind : StatementKind) :
    WrapsInGroups rekey rows kind (executions (regroup rekey rows) kind) := by
  have hwrapped : (executions (regroup rekey rows) kind).toNat =
      executionsIn (regroup rekey rows).rows kind % 2 ^ 64 :=
    (WrapsAround.sumRows _ Stats.operations).wrapped
  have hgroups : executionsIn rows kind < 2 ^ 64 →
      executionsIn (regroup rekey rows).rows kind = executionsIn rows kind :=
    sumOver_regroup (StatementId.covers_congr kind)
      (fun id => congrArg kind.covers (hkind id)) .operations
  refine ⟨fun _ => operations_regroup rekey, hwrapped, ?_⟩
  rw [← UInt64.toNat_inj, toNat_capped, toNat_greatest, hwrapped]
  -- Below `2 ^ 64` nothing is capped, so there the groups add up to what the counters do.
  by_cases hlt : executionsIn rows kind < 2 ^ 64
  · rw [hgroups hlt]
    omega
  · omega

end Query

/-! ## The rows of a batch -/

namespace Application

variable {σ : Type}

/-- What a statement adds to the counters. -/
theorem reading_perform (a : Application σ) {act : Action σ} {c : StatementCall}
    (hsql : a.tap.settings.monitorSql = true) (h : a.happening? act = some (.statement c))
    (k : StatementId) (x : Stats.Field) :
    Ledger.reading (a.perform act).tap.ledger.statements k x =
      Ledger.reading a.tap.ledger.statements k x +
        if (c.id a.tap.settings == k) = true then .ofNat (c.gain x) else 0 := by
  have hnoted : (a.perform act).tap.ledger.statements =
      Ledger.count a.tap.ledger.statements (c.id a.tap.settings) (.ofGain c.gain) := by
    have hcontent := (a.perform_notes act).content
    have hstatement : Happening.statement c ≠ .cleared := by simp
    rw [h] at hcontent
    rw [← Ledger.content_statements, hcontent]
    exact Ledger.note_statements hsql _ hstatement
  rw [hnoted]
  exact Ledger.reading_count _ (c.increment a.tap.settings) k x

/-- **Totals wrap.**

* Let a batch be run whose parts have any numbers of rows.  What the counter of the batch gains is
  their sum modulo `2 ^ 64`, and no other counter of rows changes.
* A statement expectation that is held against any counters observes as many executions and rows
  as the selected ones have together, modulo `2 ^ 64`.  It is these numbers that pass or fail; so
  where it passes although there were more rows than it allows, there were `2 ^ 64` at least.
* The count of the executions of a kind adds up the groups of the answer modulo `2 ^ 64`, and a
  group is the capped sum of its counters.

None of them is the capped sum, but where it is below `2 ^ 64` or wraps to the greatest word. -/
theorem totals_wrap :
    (∀ {ε : Type} (a : Application σ) (caller : Caller) (batch : List String)
        (outside : List String → σ → Except ε (List UInt64) × σ) (counts : List UInt64),
      a.tap.settings.monitorSql = true → (outside batch a.outside).1 = .ok counts →
      ∃ total, WrapsAround (batchRows counts) total ∧ ∀ k,
        Ledger.reading (a.perform (.executeBatch caller batch outside)).tap.ledger.statements k
            .rows =
          Ledger.reading a.tap.ledger.statements k .rows +
            if ((a.batchCall caller batch outside).id a.tap.settings == k) = true then total
            else 0) ∧
    (∀ (e : Expectation) (kind : StatementKind) (o : Observation), e.target = .statements kind →
      WrapsAround ((o.selectedStatements kind e.threads).map fun row => row.2.operations.toNat).sum
          (Finding.evaluate e o).observed ∧
        ∃ rows, (Finding.evaluate e o).rows = some rows ∧
          WrapsAround ((o.selectedStatements kind e.threads).map fun row => row.2.rows.toNat).sum
            rows ∧
          ((Finding.evaluate e o).passed = true ↔
            e.count.contains (Finding.evaluate e o).observed = true ∧
              ∀ range, e.rows = some range → range.contains rows = true) ∧
          ∀ range, e.rows = some range → (Finding.evaluate e o).passed = true →
            range.greatest.toNat <
              ((o.selectedStatements kind e.threads).map fun row => row.2.rows.toNat).sum →
            2 ^ 64 ≤
              ((o.selectedStatements kind e.threads).map fun row => row.2.rows.toNat).sum) ∧
    ∀ (s : Spy) (l : Ledger) (kind : StatementKind) (scope : Scope),
      Query.WrapsInGroups StatementId.withoutTrace
        ((s.observe l).statements.rows.filter fun row => scope.selects row.1.owner s.creator) kind
        (s.statementCount l kind scope) := by
  refine ⟨?_, ?_, ?_⟩
  · intro ε a caller batch outside counts hsql hanswer
    refine ⟨.ofNat (batchRows counts), .ofNat _, fun k => ?_⟩
    have hrows : (a.batchCall caller batch outside).gain .rows = batchRows counts := by
      simp only [StatementCall.gain, batchCall, hanswer, amount]
    rw [← hrows]
    exact a.reading_perform hsql rfl k .rows
  · intro e kind o htarget
    obtain ⟨hobserved, hrows⟩ := Finding.evaluate_statements htarget o
    have hwrapped := WrapsAround.sumRows (o.selectedStatements kind e.threads) Stats.rows
    have hpassed : (Finding.evaluate e o).passed = true ↔
        e.count.contains (Finding.evaluate e o).observed = true ∧ ∀ range, e.rows = some range →
          range.contains (sumWords ((o.selectedStatements kind e.threads).map fun row =>
            row.2.rows)) = true := by
      rw [← Finding.failureOf_isNone_iff, ← hrows]
      unfold Finding.passed Finding.evaluate
      rw [htarget]
    refine ⟨?_, _, hrows, hwrapped, hpassed, fun range hrange hpass hbeyond => ?_⟩
    · rw [hobserved]
      exact WrapsAround.sumRows _ Stats.operations
    · exact hwrapped.le_of_bound ((hpassed.1 hpass).2 range hrange) hbeyond
  · intro s l kind scope
    have hkind : ∀ id : StatementId, id.withoutTrace.kind = id.kind := fun _ => rfl
    exact Query.wrapsInGroups_executions hkind _ kind

/-- A batch of two updates with `2 ^ 63` rows each. -/
def hugeBatch : Action Unit :=
  .executeBatch (ε := String) ⟨⟨1, none⟩, "shop:7"⟩ ["update t set a = 1", "update t set a = 1"]
    fun _ s => (.ok [9223372036854775808, 9223372036854775808], s)

/-- Two updates with `2 ^ 63` rows each. -/
def hugeUpdates : List (Action Unit) :=
  [.execute (ε := String) ⟨⟨1, none⟩, "shop:7"⟩ "update t set a = 1"
      fun s => (.ok 9223372036854775808, s),
    .execute (ε := String) ⟨⟨1, none⟩, "shop:8"⟩ "update t set b = 2"
      fun s => (.ok 9223372036854775808, s)]

/-- Updates with at most five rows. -/
def smallUpdates : Expectation where
  target := .statements .update
  count := ⟨1, 2⟩
  rows := some ⟨0, 5⟩
  threads := .current

/-- No counter gains rows by the batch; and as the two updates pass for small ones, they have
`2 ^ 64` rows at least. -/
theorem totals_wrap_huge :
    (∀ k, Ledger.reading (ticking.perform hugeBatch).tap.ledger.statements k .rows =
      Ledger.reading ticking.tap.ledger.statements k .rows) ∧
    let o := (Spy.begin ⟨1, none⟩ ticking.tap.ledger).observe (ticking.run hugeUpdates).tap.ledger
    (Finding.evaluate smallUpdates o).observed.toNat = 2 ∧
      2 ^ 64 ≤ ((o.selectedStatements .update .current).map fun row => row.2.rows.toNat).sum := by
  obtain ⟨hbatch, hobserved, -⟩ := totals_wrap (σ := Unit)
  constructor
  · intro k
    obtain ⟨total, hwraps, hreading⟩ := hbatch ticking ⟨⟨1, none⟩, "shop:7"⟩
      ["update t set a = 1", "update t set a = 1"]
      (fun _ s => ((.ok [9223372036854775808, 9223372036854775808] : Except String _), s))
      [9223372036854775808, 9223372036854775808] rfl rfl
    have hnone : total = 0 := UInt64.toNat_inj.1 hwraps.wrapped
    have hk := hreading k
    rw [hnone, ite_self, UInt64.add_zero] at hk
    exact hk
  · intro o
    obtain ⟨hcount, -, -, -, -, hbeyond⟩ := hobserved smallUpdates .update o rfl
    refine ⟨hcount.wrapped.trans ?_, hbeyond ⟨0, 5⟩ rfl ?_ ?_⟩
    · decide +kernel
    · decide +kernel
    · decide +kernel

/-- **Updates with `2 ^ 64` rows pass for updates with at most five,** whether they are made in a
batch, which is recorded with no rows, or one by one. -/
theorem huge_passes_for_small :
    let s := Spy.begin ⟨1, none⟩ ticking.tap.ledger
    let batch := (ticking.run [hugeBatch]).tap.ledger
    let updates := (ticking.run hugeUpdates).tap.ledger
    batchRows [9223372036854775808, 9223372036854775808] = 2 ^ 64 ∧
      (s.executedStatements batch .any true).rows.map (fun row => row.2.rows) = [0] ∧
      (s.verify batch smallUpdates).isOk = true ∧
      (s.executedStatements updates .any true).rows.map (fun row => row.2.rows.toNat) =
        [2 ^ 63, 2 ^ 63] ∧
      (s.verify updates smallUpdates).isOk = true := by
  decide +kernel

end Application

end Wiretap
