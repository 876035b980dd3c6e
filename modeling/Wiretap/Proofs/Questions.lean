import Wiretap.Proofs.Connections
import Wiretap.Proofs.Gathering
import Wiretap.Proofs.Listing
/-!
# Questions divide counters among threads

A question picks the counters of some threads, puts them under new keys, which may lose their call
sites, and adds up those that fall together.  Counters of different threads never fall together, as
a new key keeps its thread.  So it is all one whether counters are picked and then added up or the
other way round: **asking in a scope is looking into the sums of all counters, but only at the keys
of the scope** (`get?_regroup_filter`).

From this it follows how the answers in the three scopes hang together, and that the order of the
counters does not show.  An answer that is asked again stands as it is, because no two of its keys
fall together any more (`regroup_of_distinct`).

`questions_divide_counters` says all this of both questions.
-/

namespace Wiretap

namespace Scope

/-- Every thread is the current one or another. -/
theorem any_eq_or (owner creator : Thread) : any.selects owner creator =
    (current.selects owner creator || others.selects owner creator) := by
  rw [selects_others, Bool.or_not_self]
  rfl

/-- No thread is both. -/
theorem current_and_others (owner creator : Thread) :
    (current.selects owner creator && others.selects owner creator) = false := by
  rw [selects_others, Bool.and_not_self]

end Scope

/-- Tables with the same rows are equal. -/
theorem Table.eq_of_rows {κ : Type u} {ν : Type v} [BEq κ] {t t' : Table κ ν}
    (h : t.rows = t'.rows) : t = t' := by
  obtain ⟨rows, _⟩ := t
  obtain ⟨rows', _⟩ := t'
  obtain rfl : rows = rows' := h
  rfl

namespace Stats

@[simp] theorem zero_plus (s : Stats) : zero.plus s = s := by
  have hword : ∀ w : UInt64, cappedAdd 0 w = w := by
    intro w
    have hw := w.toNat_lt
    rw [← UInt64.toNat_inj, toNat_cappedAdd, toNat_greatest, UInt64.toNat_zero]
    omega
  refine ext_get fun x => ?_
  rw [get_plus, get_zero, hword]

/-- Counters that are added up come to the capped sum of each quantity. -/
theorem get_foldl_plus {κ : Type u} (rows : List (κ × Stats)) (x : Field) :
    (rows.foldl (fun s row => s.plus row.2) zero).get x =
      capped (rows.map fun row => (row.2.get x).toNat).sum := by
  induction rows using List.reverseRecOn with
  | nil => exact get_zero x
  | append_singleton rows row ih =>
    rw [List.foldl_concat, get_plus, ih, cappedAdd_capped, List.map_append, List.sum_append,
      List.map_singleton, List.sum_singleton]

end Stats

namespace Query

variable {κ : Type u} [BEq κ] [EquivBEq κ] {rekey : κ → κ}

/-- A new key is that of some row. -/
theorem contains_regroup (rows : List (κ × Stats)) (k : κ) :
    (regroup rekey rows).contains k = true ↔ ∃ row ∈ rows, (rekey row.1 == k) = true := by
  have hfound := get?_regroup rekey rows k
  rw [Table.contains_eq_isSome, hfound]
  by_cases hnone : (rows.filter fun row => rekey row.1 == k) = []
  · rw [if_pos hnone]
    rw [List.filter_eq_nil_iff] at hnone
    constructor
    · intro h
      cases h
    · rintro ⟨row, hrow, hkey⟩
      exact absurd hkey (hnone row hrow)
  · rw [if_neg hnone]
    obtain ⟨row, hmem⟩ := List.exists_mem_of_ne_nil _ hnone
    obtain ⟨hrow, hkey⟩ := List.mem_filter.1 hmem
    exact ⟨fun _ => ⟨row, hrow, hkey⟩, fun _ => rfl⟩

/-- **Asking in a scope.**  The counters that come under one key are all picked, or none is. -/
theorem get?_regroup_filter {p : κ → Bool} (hp : ∀ k k', (k == k') = true → p k = p k')
    (hrekey : ∀ k, p (rekey k) = p k) (rows : List (κ × Stats)) (k : κ) :
    (regroup rekey (rows.filter fun row => p row.1)).get? k =
      if p k = true then (regroup rekey rows).get? k else none := by
  have hpicked : ∀ row : κ × Stats, (rekey row.1 == k) = true → p row.1 = p k := by
    intro row hkey
    rw [← hrekey, hp _ _ hkey]
  rw [get?_regroup, get?_regroup, List.filter_filter]
  by_cases hk : p k = true
  · have hall : (rows.filter fun row => rekey row.1 == k && p row.1) =
        rows.filter fun row => rekey row.1 == k := by
      refine List.filter_congr fun row _ => ?_
      cases hkey : rekey row.1 == k with
      | false => rfl
      | true => rw [hpicked row hkey, hk, Bool.and_self]
    rw [hall, if_pos hk]
  · have hnone : (rows.filter fun row => rekey row.1 == k && p row.1) = [] := by
      refine List.filter_eq_nil_iff.2 fun row _ hrow => hk ?_
      obtain ⟨hkey, hp⟩ := Bool.and_eq_true_iff.1 hrow
      rw [← hpicked row hkey, hp]
    rw [hnone, if_neg hk]
    rfl

omit [EquivBEq κ] in
/-- A key of an answer is a new key. -/
theorem exists_of_mem_regroup {rows : List (κ × Stats)} {k : κ}
    (h : k ∈ (regroup rekey rows).keys) : ∃ row ∈ rows, rekey row.1 = k := by
  induction rows using List.reverseRecOn with
  | nil => cases h
  | append_singleton rows row ih =>
    rw [regroup_concat, Table.keys_alter] at h
    have hcases : k ∈ (regroup rekey rows).keys ∨ k = rekey row.1 := by
      split at h
      · exact .inl h
      · simpa using h
    rcases hcases with hbefore | rfl
    · obtain ⟨earlier, hmem, hkey⟩ := ih hbefore
      exact ⟨earlier, List.mem_append_left _ hmem, hkey⟩
    · exact ⟨row, List.mem_concat_self, rfl⟩

omit [EquivBEq κ] in
/-- **Where no two counters fall together,** and none loses anything, they stand as they are. -/
theorem rows_regroup_of_distinct {rows : List (κ × Stats)}
    (hkept : ∀ row ∈ rows, rekey row.1 = row.1)
    (hdistinct : rows.Pairwise fun a b => (a.1 == b.1) = false) :
    (regroup rekey rows).rows = rows := by
  induction rows using List.reverseRecOn with
  | nil => rfl
  | append_singleton rows row ih =>
    obtain ⟨hbefore, -, habsent⟩ := List.pairwise_append.1 hdistinct
    have hrows := ih (fun earlier hmem => hkept earlier (List.mem_append_left _ hmem)) hbefore
    have hnew : ∀ earlier ∈ rows, (earlier.1 == row.1) = false := by
      intro earlier hmem
      exact habsent earlier hmem row (List.mem_singleton.2 rfl)
    calc (regroup rekey (rows ++ [row])).rows
        = Table.alterRows (rekey row.1) (fun s => (s.getD .zero).plus row.2)
            (regroup rekey rows).rows := by
          rw [regroup_concat]
          rfl
      _ = rows ++ [row] := by
          rw [hrows, hkept row List.mem_concat_self, Table.alterRows_of_absent hnew,
            Option.getD_none, Stats.zero_plus]

omit [EquivBEq κ] in
/-- The counters of an answer are picked again, all of them, and nothing is left to add up. -/
theorem regroup_regroup {p : κ → Bool} (hrekey : ∀ k, p (rekey k) = p k)
    (hstands : ∀ k, rekey (rekey k) = rekey k) (rows : List (κ × Stats)) :
    regroup rekey
        ((regroup rekey (rows.filter fun row => p row.1)).rows.filter fun row => p row.1) =
      regroup rekey (rows.filter fun row => p row.1) := by
  have hnew : ∀ row ∈ (regroup rekey (rows.filter fun row => p row.1)).rows,
      ∃ earlier ∈ rows.filter fun row => p row.1, rekey earlier.1 = row.1 := by
    intro row hrow
    exact exists_of_mem_regroup (List.mem_map.2 ⟨row, hrow, rfl⟩)
  have hpicked : ((regroup rekey (rows.filter fun row => p row.1)).rows.filter fun row =>
      p row.1) = (regroup rekey (rows.filter fun row => p row.1)).rows := by
    refine List.filter_eq_self.2 fun row hrow => ?_
    obtain ⟨earlier, hearlier, hkey⟩ := hnew row hrow
    rw [← hkey, hrekey]
    exact (List.mem_filter.1 hearlier).2
  rw [hpicked]
  refine Table.eq_of_rows (rows_regroup_of_distinct (fun row hrow => ?_) (Table.distinct _))
  obtain ⟨earlier, -, hkey⟩ := hnew row hrow
  rw [← hkey, hstands]

/-- **Questions that divide counters among threads.**  There is one question for each scope; what
`selects` picks in a scope is put under new keys by `rekey`. -/
structure Divides (ask : Scope → Table κ Stats → Table κ Stats) (selects : Scope → κ → Bool)
    (rekey : κ → κ) : Prop where
  /-- The answers for the thread that asks and for the others make up the answer for all, -/
  union : ∀ t k, (ask .any t).get? k = ((ask .current t).get? k).or ((ask .others t).get? k)
  /-- and they have no key in common. -/
  disjoint : ∀ t k, ¬ ((ask .current t).contains k = true ∧ (ask .others t).contains k = true)
  /-- A key is answered with if it is the new key of a counter that was picked, -/
  contains : ∀ scope t k, (ask scope t).contains k = true ↔
    ∃ row ∈ t.rows, selects scope row.1 = true ∧ (rekey row.1 == k) = true
  /-- and it then has what all of these counters come to. -/
  total : ∀ scope t k s, (ask scope t).get? k = some s → ∀ x, s.get x = capped
    ((t.rows.filter fun row => selects scope row.1 && rekey row.1 == k).map fun row =>
      (row.2.get x).toNat).sum
  /-- The order of the counters does not show. -/
  order : ∀ scope t t', t.rows.Perm t'.rows → ∀ k, (ask scope t).get? k = (ask scope t').get? k
  /-- An answer that is asked again stands. -/
  again : ∀ scope t, ask scope (ask scope t) = ask scope t

/-- What it takes for that: what a question picks by is seen alike in keys that are the same, and
kept by new keys, and a thread is either the one that asks or another. -/
theorem divides_of_kept {ask : Scope → Table κ Stats → Table κ Stats} {selects : Scope → κ → Bool}
    (hask : ∀ scope t, ask scope t = regroup rekey (t.rows.filter fun row => selects scope row.1))
    (hcongr : ∀ scope k k', (k == k') = true → selects scope k = selects scope k')
    (hkept : ∀ scope k, selects scope (rekey k) = selects scope k)
    (hstands : ∀ k, rekey (rekey k) = rekey k)
    (hany : ∀ k, selects .any k = (selects .current k || selects .others k))
    (heither : ∀ k, (selects .current k && selects .others k) = false) :
    Divides ask selects rekey := by
  have hpicks : ∀ scope t k, (ask scope t).get? k =
      if selects scope k = true then (regroup rekey t.rows).get? k else none := by
    intro scope t k
    rw [hask]
    exact get?_regroup_filter (hcongr scope) (hkept scope) t.rows k
  refine ⟨?_, ?_, ?_, ?_, ?_, ?_⟩
  · intro t k
    rw [hpicks, hpicks, hpicks, hany]
    have hone := heither k
    cases hcurrent : selects .current k with
    | true =>
      rw [hcurrent, Bool.true_and] at hone
      simp [hone]
    | false => simp
  · rintro t k ⟨hcurrent, hothers⟩
    have hpicked : ∀ {scope}, (ask scope t).contains k = true → selects scope k = true := by
      intro scope h
      rw [Table.contains_eq_isSome, hpicks] at h
      by_contra hnot
      rw [if_neg hnot] at h
      cases h
    have hboth := heither k
    rw [hpicked hcurrent, hpicked hothers] at hboth
    cases hboth
  · intro scope t k
    rw [hask, contains_regroup]
    constructor
    · rintro ⟨row, hrow, hkey⟩
      obtain ⟨hmem, hselects⟩ := List.mem_filter.1 hrow
      exact ⟨row, hmem, hselects, hkey⟩
    · rintro ⟨row, hmem, hselects, hkey⟩
      exact ⟨row, List.mem_filter.2 ⟨hmem, hselects⟩, hkey⟩
  · intro scope t k s hget x
    have hfound := get?_regroup rekey (t.rows.filter fun row => selects scope row.1) k
    rw [← hask, hget] at hfound
    split at hfound
    · cases hfound
    · rw [Option.some.inj hfound, Stats.get_foldl_plus, List.filter_filter]
      simp only [Bool.and_comm]
  · intro scope t t' hperm k
    rw [hask, hask]
    exact get?_regroup_perm rekey (hperm.filter _) k
  · intro scope t
    rw [hask, hask]
    exact regroup_regroup (hkept scope) hstands t.rows

/-- The question on statements divides the counters. -/
theorem divides_statements (creator : Thread) (removeTraces : Bool) :
    Divides (fun scope t => statements t scope creator removeTraces)
      (fun scope id => scope.selects id.owner creator)
      (fun id => if removeTraces then { id with trace := none } else id) := by
  refine divides_of_kept (fun scope t => rfl) ?_ ?_ ?_ ?_ ?_
  · intro scope id id' hsame
    have hkey := StatementId.beq_iff.1 hsame
    simp only [StatementId.key, Prod.mk.injEq] at hkey
    obtain ⟨-, -, howner, -⟩ := hkey
    exact scope.selects_congr howner creator
  · intro scope id
    cases removeTraces <;> rfl
  · intro id
    cases removeTraces <;> rfl
  · intro id
    exact Scope.any_eq_or id.owner creator
  · intro id
    exact Scope.current_and_others id.owner creator

/-- The question on connections divides the counters. -/
theorem divides_sockets (creator : Thread) (matcher : AddressMatcher) (removeTraces : Bool) :
    Divides (fun scope t => sockets t scope creator matcher removeTraces)
      (fun scope id => scope.selects id.owner creator && matcher.accepts id.address)
      (fun id => if removeTraces then { id with trace := none } else id) := by
  refine divides_of_kept (fun scope t => rfl) ?_ ?_ ?_ ?_ ?_
  · intro scope id id' hsame
    have hkey := ConnectionId.beq_iff.1 hsame
    simp only [ConnectionId.key, Prod.mk.injEq] at hkey
    obtain ⟨haddress, -, howner, -⟩ := hkey
    rw [haddress, scope.selects_congr howner]
  · intro scope id
    cases removeTraces <;> rfl
  · intro id
    cases removeTraces <;> rfl
  · intro id
    rw [Scope.any_eq_or, Bool.and_or_distrib_right]
  · intro id
    have hone := Scope.current_and_others id.owner creator
    cases hcurrent : Scope.current.selects id.owner creator with
    | false => rfl
    | true =>
      rw [hcurrent, Bool.true_and] at hone
      rw [hone, Bool.false_and, Bool.and_false]

end Query

/-- **Both questions divide the counters,** whoever asks, for connections to whichever addresses,
with call sites or without them.  The new key of a counter is its identity, which has lost its call
site if that was asked for and nothing else. -/
theorem questions_divide_counters (creator : Thread) (matcher : AddressMatcher)
    (removeTraces : Bool) :
    Query.Divides (fun scope t => Query.statements t scope creator removeTraces)
      (fun scope id => scope.selects id.owner creator)
      (fun id => if removeTraces then { id with trace := none } else id) ∧
    Query.Divides (fun scope t => Query.sockets t scope creator matcher removeTraces)
      (fun scope id => scope.selects id.owner creator && matcher.accepts id.address)
      (fun id => if removeTraces then { id with trace := none } else id) :=
  ⟨Query.divides_statements creator removeTraces,
    Query.divides_sockets creator matcher removeTraces⟩

end Wiretap
