import Mathlib.Data.List.Chain
import Mathlib.Data.List.Forall2
import Wiretap.Traffic.Packet
/-!
# Lists that are cut into runs

Chunks become packets, and packets become longer packets, in one and the same way: one element
after another is put behind the **run** that is under way, until one comes that does not go with it
and begins a run of its own.  Whether it does may depend on all that the run holds by then, so a cut
cannot be found by looking at neighbours alone.

Here this is said without an algorithm.  A rule `cuts run a` says when `a` does not go with the run
before it, and a `Cutting` of a list is a way to cut it that obeys the rule at every place:

* `Cutting.unique` — a rule cuts a list in one way only;
* `Cutting.grow`, `Cutting.start` — what one more element at the end does to a cutting;
* `Cutting.one`, `Cutting.cons` — the same from the front.

Of the times in a run the rules ask for the latest (`IsLatest`), which a packet remembers.
-/

namespace Wiretap

section Cutting

variable {α : Type*} {cuts : List α → α → Prop}

/-- A run that the rule cuts nowhere. -/
def Unbroken (cuts : List α → α → Prop) (run : List α) : Prop :=
  ∀ before a, before ≠ [] → before ++ [a] <+: run → ¬ cuts before a

theorem Unbroken.singleton (a : α) : Unbroken cuts [a] := by
  intro before b hbefore hprefix
  have hlength := hprefix.length_le
  have hpositive := List.length_pos_iff.2 hbefore
  rw [List.length_append, List.length_singleton, List.length_singleton] at hlength
  omega

theorem Unbroken.concat {run : List α} {a : α} (h : Unbroken cuts run) (ha : ¬ cuts run a) :
    Unbroken cuts (run ++ [a]) := by
  intro before b hbefore hprefix
  rcases List.prefix_concat_iff.1 hprefix with hwhole | hearlier
  · obtain ⟨rfl, hlast⟩ := List.append_inj' hwhole rfl
    rw [List.singleton_inj] at hlast
    rw [hlast]
    exact ha
  · exact h before b hbefore hearlier

/-- A list cut into runs: none is empty, the rule cuts none of them further, and it cuts between
each of them and the next. -/
structure Cutting (cuts : List α → α → Prop) (l : List α) (runs : List (List α)) : Prop where
  flatten : runs.flatten = l
  filled : ∀ run ∈ runs, run ≠ []
  unbroken : ∀ run ∈ runs, Unbroken cuts run
  apart : runs.IsChain fun run next => ∃ a ∈ next.head?, cuts run a

namespace Cutting

variable {l : List α} {runs : List (List α)}

theorem nil : Cutting cuts [] [] :=
  ⟨rfl, fun _ h => (List.not_mem_nil h).elim, fun _ h => (List.not_mem_nil h).elim, .nil⟩

/-- The first run begins as the list does. -/
theorem head?_run {a : α} {run : List α} (h : Cutting cuts (a :: l) (run :: runs)) :
    run.head? = some a := by
  have hflatten := h.flatten
  have hfilled := h.filled run List.mem_cons_self
  cases run with
  | nil => exact absurd rfl hfilled
  | cons b rest =>
    rw [List.flatten_cons, List.cons_append, List.cons.injEq] at hflatten
    rw [List.head?_cons, hflatten.1]

/-- What comes behind the first run is cut as well. -/
theorem tail {run rest : List α} (h : Cutting cuts (run ++ rest) (run :: runs)) :
    Cutting cuts rest runs := by
  obtain ⟨hflatten, hfilled, hunbroken, hapart⟩ := h
  rw [List.flatten_cons] at hflatten
  exact ⟨List.append_cancel_left hflatten, fun r hr => hfilled r (List.mem_cons_of_mem _ hr),
    fun r hr => hunbroken r (List.mem_cons_of_mem _ hr), (List.isChain_cons.1 hapart).2⟩

/-- The first run of one cutting is not longer than that of another: the rule cuts behind the
shorter one, which would break the longer one. -/
private theorem prefix_of_first {run run' : List α} {runs' : List (List α)}
    (h : Cutting cuts l (run :: runs)) (h' : Cutting cuts l (run' :: runs')) :
    run' <+: run := by
  have hprefix : run <+: l := ⟨runs.flatten, h.flatten⟩
  have hprefix' : run' <+: l := ⟨runs'.flatten, h'.flatten⟩
  rcases List.prefix_or_prefix_of_prefix hprefix hprefix' with hshort | hlong
  · obtain ⟨more, rfl⟩ := hshort
    cases more with
    | nil => exact ⟨[], by simp⟩
    | cons a more =>
      exfalso
      have hrest : Cutting cuts (a :: (more ++ runs'.flatten)) runs := by
        have hl : l = run ++ a :: (more ++ runs'.flatten) := by
          rw [← h'.flatten, List.flatten_cons, List.append_assoc, List.cons_append]
        rw [hl] at h
        exact h.tail
      cases runs with
      | nil => cases hrest.flatten
      | cons next runs =>
        obtain ⟨b, hb, hcut⟩ := (List.isChain_cons.1 h.apart).1 next rfl
        rw [hrest.head?_run, Option.mem_some_iff] at hb
        subst hb
        have hfilled := h.filled run List.mem_cons_self
        have hunbroken := h'.unbroken _ List.mem_cons_self
        exact hunbroken run a hfilled ⟨more, by simp⟩ hcut
  · exact hlong

/-- **A rule cuts a list in one way only.**  By induction on the runs: the first runs of two
cuttings are the same, and the rest is cut alike. -/
theorem unique {runs' : List (List α)} (h : Cutting cuts l runs) (h' : Cutting cuts l runs') :
    runs' = runs := by
  induction runs generalizing l runs' with
  | nil =>
    obtain rfl : [] = l := h.flatten
    cases runs' with
    | nil => rfl
    | cons run' runs' =>
      have hflatten := h'.flatten
      rw [List.flatten_cons, List.append_eq_nil_iff] at hflatten
      exact absurd hflatten.1 (h'.filled run' List.mem_cons_self)
  | cons run runs ih =>
    cases runs' with
    | nil =>
      obtain rfl : [] = l := h'.flatten
      have hflatten := h.flatten
      rw [List.flatten_cons, List.append_eq_nil_iff] at hflatten
      exact absurd hflatten.1 (h.filled run List.mem_cons_self)
    | cons run' runs' =>
      have hlength : run'.length = run.length :=
        Nat.le_antisymm (prefix_of_first h h').length_le (prefix_of_first h' h).length_le
      obtain rfl : run' = run := (prefix_of_first h h').eq_of_length hlength
      obtain rfl : run' ++ runs.flatten = l := h.flatten
      rw [ih h.tail h'.tail]

/-- An element that goes with the last run is put behind it. -/
theorem grow {run : List α} {a : α} (h : Cutting cuts l (runs ++ [run])) (ha : ¬ cuts run a) :
    Cutting cuts (l ++ [a]) (runs ++ [run ++ [a]]) := by
  obtain ⟨hflatten, hfilled, hunbroken, hapart⟩ := h
  obtain ⟨hchain, -, hlast⟩ := List.isChain_append.1 hapart
  have hrun : run ≠ [] := hfilled run (List.mem_append_right _ List.mem_cons_self)
  refine ⟨?_, ?_, ?_, ?_⟩
  · rw [← hflatten, List.flatten_concat, List.flatten_concat, List.append_assoc]
  · intro r hr
    rcases List.mem_append.1 hr with hr | hr
    · exact hfilled r (List.mem_append_left _ hr)
    · rw [List.mem_singleton.1 hr]
      exact List.append_ne_nil_of_left_ne_nil hrun [a]
  · intro r hr
    rcases List.mem_append.1 hr with hr | hr
    · exact hunbroken r (List.mem_append_left _ hr)
    · rw [List.mem_singleton.1 hr]
      exact (hunbroken run (List.mem_append_right _ List.mem_cons_self)).concat ha
  · refine hchain.append (List.isChain_singleton _) ?_
    intro r hr next hnext
    obtain ⟨b, hb, hcut⟩ := hlast r hr run rfl
    rw [List.head?_cons, Option.mem_some_iff] at hnext
    refine ⟨b, ?_, hcut⟩
    rw [← hnext, List.head?_append_of_ne_nil _ hrun]
    exact hb

/-- An element that does not go with the last run begins another. -/
theorem start {a : α} (h : Cutting cuts l runs) (ha : ∀ run ∈ runs.getLast?, cuts run a) :
    Cutting cuts (l ++ [a]) (runs ++ [[a]]) := by
  obtain ⟨hflatten, hfilled, hunbroken, hapart⟩ := h
  refine ⟨?_, ?_, ?_, ?_⟩
  · rw [← hflatten, List.flatten_concat]
  · intro r hr
    rcases List.mem_append.1 hr with hr | hr
    · exact hfilled r hr
    · rw [List.mem_singleton.1 hr]
      exact List.cons_ne_nil a []
  · intro r hr
    rcases List.mem_append.1 hr with hr | hr
    · exact hunbroken r hr
    · rw [List.mem_singleton.1 hr]
      exact .singleton a
  · refine hapart.append (List.isChain_singleton _) ?_
    intro r hr next hnext
    rw [List.head?_cons, Option.mem_some_iff] at hnext
    rw [← hnext]
    exact ⟨a, rfl, ha r hr⟩

/-- A run that is cut nowhere is its own cutting. -/
theorem one {run : List α} (hrun : run ≠ []) (h : Unbroken cuts run) :
    Cutting cuts run [run] := by
  refine ⟨List.append_nil run, ?_, ?_, List.isChain_singleton _⟩
  · intro r hr
    rw [List.mem_singleton.1 hr]
    exact hrun
  · intro r hr
    rw [List.mem_singleton.1 hr]
    exact h

/-- A run goes before a list whose first element does not go with it. -/
theorem cons {run : List α} {a : α} (hrun : run ≠ []) (hunbroken : Unbroken cuts run)
    (hcut : cuts run a) (h : Cutting cuts (a :: l) runs) :
    Cutting cuts (run ++ a :: l) (run :: runs) := by
  refine ⟨?_, ?_, ?_, ?_⟩
  · rw [List.flatten_cons, h.flatten]
  · intro r hr
    rcases List.mem_cons.1 hr with rfl | hr
    · exact hrun
    · exact h.filled r hr
  · intro r hr
    rcases List.mem_cons.1 hr with rfl | hr
    · exact hunbroken
    · exact h.unbroken r hr
  · refine List.isChain_cons.2 ⟨?_, h.apart⟩
    intro next hnext
    cases runs with
    | nil => cases hnext
    | cons first rest =>
      rw [List.head?_cons, Option.mem_some_iff] at hnext
      rw [← hnext]
      exact ⟨a, h.head?_run, hcut⟩

end Cutting

end Cutting

/-- The latest of the times in a run. -/
structure IsLatest {α : Type*} (time : α → UInt64) (run : List α) (last : UInt64) : Prop where
  reached : ∃ a ∈ run, last = time a
  bound : ∀ a ∈ run, time a ≤ last

namespace IsLatest

variable {α : Type*} {time : α → UInt64} {run : List α} {last : UInt64}

theorem singleton (a : α) : IsLatest time [a] (time a) := by
  refine ⟨⟨a, List.mem_cons_self, rfl⟩, ?_⟩
  intro b hb
  rw [List.mem_singleton.1 hb]
  exact UInt64.le_refl _

/-- The latest of a run that goes on is the later of the latest so far and the new one. -/
theorem concat (h : IsLatest time run last) (a : α) :
    IsLatest time (run ++ [a]) (max last (time a)) := by
  obtain ⟨⟨b, hb, hreached⟩, hbound⟩ := h
  refine ⟨?_, ?_⟩
  · rw [UInt64.max_def]
    split
    · exact ⟨a, List.mem_append_right _ List.mem_cons_self, rfl⟩
    · exact ⟨b, List.mem_append_left _ hb, hreached⟩
  · intro c hc
    rw [UInt64.le_iff_toNat_le, UInt64.toNat_max]
    rcases List.mem_append.1 hc with hc | hc
    · have hle := UInt64.le_iff_toNat_le.1 (hbound c hc)
      omega
    · rw [List.mem_singleton.1 hc]
      omega

/-- **A pause is too long** after the latest time exactly if it is too long after all of them. -/
theorem pause_iff (h : IsLatest time run last) (now threshold : UInt64) :
    ¬ flooredSub now last ≤ threshold ↔
      ∀ a ∈ run, (time a).toNat + threshold.toNat < now.toNat := by
  have hsub := toNat_flooredSub now last
  rw [UInt64.le_iff_toNat_le]
  constructor
  · intro hpause a ha
    have hle := UInt64.le_iff_toNat_le.1 (h.bound a ha)
    omega
  · intro hall
    obtain ⟨a, ha, hreached⟩ := h.reached
    have hone := hall a ha
    rw [← hreached] at hone
    omega

end IsLatest

end Wiretap
