import Wiretap.Expectation
/-!
# Which specifications make expectations

A specification is taken if its bounds do not contradict each other, and refused otherwise.  What it
is made into is a range for each of its two sets of bounds, and a range knows nothing of how it was
written: an exact number is a range of one, and where a bound is missing the range goes on to the
least or the greatest word.

* `Bounds.Reads` lists what bounds can be read as; `reads_range` says that there is nothing else.
* A range **describes** bounds if it holds the numbers that every given bound allows, and at least
  one.  Bounds have one such range at most (`Range.eq_of_contains`), so saying what it holds is
  saying which it is (`Bounds.range_eq_ok_iff`).
* `specification_is_checked` puts the two sets of bounds together with what is counted.
-/

namespace Wiretap

namespace Range

/-- A range contains what is between its ends. -/
theorem contains_iff {r : Range} {n : UInt64} :
    r.contains n = true ↔ r.least ≤ n ∧ n ≤ r.greatest := by
  rw [contains, Bool.and_eq_true, decide_eq_true_eq, decide_eq_true_eq]

/-- An exact range contains one number. -/
theorem contains_exact {n k : UInt64} : (exact k).contains n = true ↔ n = k := by
  rw [contains_iff]
  constructor
  · rintro ⟨hleast, hgreatest⟩
    exact UInt64.le_antisymm hgreatest hleast
  · rintro rfl
    exact ⟨UInt64.le_refl _, UInt64.le_refl _⟩

/-- Ranges that hold the same numbers have the same ends, unless they hold none. -/
theorem eq_of_contains {r r' : Range} (hsome : ∃ n, r.contains n = true)
    (hsame : ∀ n, r.contains n = true ↔ r'.contains n = true) : r = r' := by
  have hends : ∀ {s s' : Range}, s.least ≤ s.greatest →
      (∀ n, s.contains n = true → s'.contains n = true) →
      s'.least ≤ s.least ∧ s.greatest ≤ s'.greatest := by
    intro s s' hle hsub
    have hleast := hsub s.least (contains_iff.2 ⟨UInt64.le_refl _, hle⟩)
    have hgreatest := hsub s.greatest (contains_iff.2 ⟨hle, UInt64.le_refl _⟩)
    exact ⟨(contains_iff.1 hleast).1, (contains_iff.1 hgreatest).2⟩
  obtain ⟨n, hn⟩ := hsome
  obtain ⟨hlow, hhigh⟩ := contains_iff.1 hn
  obtain ⟨hlow', hhigh'⟩ := contains_iff.1 ((hsame n).1 hn)
  obtain ⟨hleast, hgreatest⟩ := hends (UInt64.le_trans hlow hhigh) fun k => (hsame k).1
  obtain ⟨hleast', hgreatest'⟩ := hends (UInt64.le_trans hlow' hhigh') fun k => (hsame k).2
  rw [Range.mk.injEq]
  exact ⟨UInt64.le_antisymm hleast' hleast, UInt64.le_antisymm hgreatest hgreatest'⟩

end Range

namespace Bounds

variable {b : Bounds}

/-- A number that every given bound allows. -/
def Allows (b : Bounds) (n : UInt64) : Prop :=
  (∀ k, b.exact = some k → n = k) ∧ (∀ k, b.least = some k → k ≤ n) ∧
    ∀ k, b.greatest = some k → n ≤ k

/-- One bound at least is given. -/
def Given (b : Bounds) : Prop := b.exact ≠ none ∨ b.least ≠ none ∨ b.greatest ≠ none

/-- Bounds that do not contradict each other. -/
structure Agree (b : Bounds) : Prop where
  /-- An exact number stands alone. -/
  alone : b.exact ≠ none → b.least = none ∧ b.greatest = none
  /-- The greatest number is not below the least one. -/
  rising : ∀ least greatest, b.least = some least → b.greatest = some greatest → least ≤ greatest

/-- The range holds just the numbers that the bounds allow, and there is one. -/
structure Describes (b : Bounds) (r : Range) : Prop where
  contains_iff : ∀ n, r.contains n = true ↔ b.Allows n
  inhabited : ∃ n, r.contains n = true

/-! ## Open ends -/

/-- The least number, or zero. -/
def floor (b : Bounds) : UInt64 := b.least.getD 0

/-- The greatest number, or the greatest word. -/
def ceiling (b : Bounds) : UInt64 := b.greatest.getD Wiretap.greatest

/-- A number is not below the floor if no least number is above it. -/
theorem floor_le_iff {n : UInt64} : b.floor ≤ n ↔ ∀ k, b.least = some k → k ≤ n := by
  unfold floor
  cases b.least with
  | none => simp
  | some least => simp

/-- Every counter is at most the greatest one. -/
theorem le_greatest (n : UInt64) : n ≤ Wiretap.greatest := by
  rw [UInt64.le_iff_toNat_le, toNat_greatest]
  have hlt := n.toNat_lt
  omega

/-- A number is not above the ceiling if no greatest number is below it. -/
theorem le_ceiling_iff {n : UInt64} : n ≤ b.ceiling ↔ ∀ k, b.greatest = some k → n ≤ k := by
  unfold ceiling
  cases b.greatest with
  | none => simp [le_greatest]
  | some greatest => simp

/-- The floor is not above the ceiling if no given least number is above a given greatest one. -/
theorem floor_le_ceiling_iff :
    b.floor ≤ b.ceiling ↔
      ∀ least greatest, b.least = some least → b.greatest = some greatest → least ≤ greatest := by
  rw [floor_le_iff]
  constructor
  · intro h least greatest hleast hgreatest
    exact le_ceiling_iff.1 (h least hleast) greatest hgreatest
  · intro h least hleast
    exact le_ceiling_iff.2 fun greatest hgreatest => h least greatest hleast hgreatest

/-! ## What bounds are read as -/

/-- What bounds can be read as. -/
inductive Reads (q : Quantity) (b : Bounds) : Except SpecificationError (Option Range) → Prop where
  | nothing (hb : b = {}) : Reads q b (.ok none)
  | exact {n : UInt64} (hb : b = { exact := some n }) : Reads q b (.ok (some (.exact n)))
  | span (hexact : b.exact = none) (hopen : b.least ≠ none ∨ b.greatest ≠ none)
      (hrising : b.floor ≤ b.ceiling) : Reads q b (.ok (some ⟨b.floor, b.ceiling⟩))
  | mixed (hexact : b.exact ≠ none) (hopen : b.least ≠ none ∨ b.greatest ≠ none) :
      Reads q b (.error (.exactWithRange q))
  | inverted (hexact : b.exact = none) (hfalling : ¬ b.floor ≤ b.ceiling) :
      Reads q b (.error (.invertedRange q b.floor b.ceiling))

/-- Bounds without an exact number, of which one is given. -/
theorem reads_open (q : Quantity) (hexact : b.exact = none)
    (hopen : b.least ≠ none ∨ b.greatest ≠ none) : b.Reads q (b.range q) := by
  have hrange : b.range q =
      if b.ceiling < b.floor then .error (.invertedRange q b.floor b.ceiling)
      else .ok (some ⟨b.floor, b.ceiling⟩) := by
    obtain ⟨exact, least, greatest⟩ := b
    cases hexact
    cases least <;> cases greatest
    case none.none => simp at hopen
    all_goals rfl
  rw [hrange]
  split
  · rename_i hfalling
    exact .inverted hexact (UInt64.not_le.2 hfalling)
  · rename_i hrising
    exact .span hexact hopen (UInt64.not_lt.1 hrising)

/-- **There is nothing else that bounds are read as.** -/
theorem reads_range (q : Quantity) (b : Bounds) : b.Reads q (b.range q) := by
  by_cases hopen : b.least ≠ none ∨ b.greatest ≠ none
  · by_cases hexact : b.exact = none
    · exact reads_open q hexact hopen
    · have hrange : b.range q = .error (.exactWithRange q) := by
        obtain ⟨exact, least, greatest⟩ := b
        cases exact
        case none => exact absurd rfl hexact
        cases least <;> cases greatest
        case some.none.none => simp at hopen
        all_goals rfl
      rw [hrange]
      exact .mixed hexact hopen
  · obtain ⟨exact, least, greatest⟩ := b
    obtain ⟨rfl, rfl⟩ : least = none ∧ greatest = none := by simpa using hopen
    cases exact with
    | none => exact .nothing rfl
    | some n => exact .exact rfl

/-- Bounds that are taken do not contradict each other, and the range describes them. -/
structure ReadAs (b : Bounds) (found : Option Range) : Prop where
  agree : b.Agree
  isSome_iff : found.isSome = true ↔ b.Given
  describes : ∀ r, found = some r → b.Describes r

/-- Where nothing is given, nothing is asked. -/
theorem readAs_nothing : ReadAs {} none where
  agree := ⟨fun _ => ⟨rfl, rfl⟩, fun _ _ hleast _ => nomatch hleast⟩
  isSome_iff := by simp [Given]
  describes := fun _ hr => nomatch hr

/-- A number given alone is the one number asked for. -/
theorem readAs_exact (n : UInt64) : ReadAs { exact := some n } (some (.exact n)) where
  agree := ⟨fun _ => ⟨rfl, rfl⟩, fun _ _ hleast _ => nomatch hleast⟩
  isSome_iff := by simp [Given]
  describes := by
    rintro r hr
    obtain rfl := Option.some.inj hr
    refine ⟨fun k => ?_, n, Range.contains_exact.2 rfl⟩
    rw [Range.contains_exact]
    simp [Allows, eq_comm]

/-- Bounds given without an exact number are read as the span between them. -/
theorem readAs_span (hexact : b.exact = none) (hopen : b.least ≠ none ∨ b.greatest ≠ none)
    (hrising : b.floor ≤ b.ceiling) : b.ReadAs (some ⟨b.floor, b.ceiling⟩) where
  agree := ⟨fun h => absurd hexact h, floor_le_ceiling_iff.1 hrising⟩
  isSome_iff := iff_of_true rfl (.inr hopen)
  describes := by
    rintro r hr
    obtain rfl := Option.some.inj hr
    refine ⟨fun n => ?_, b.floor, Range.contains_iff.2 ⟨UInt64.le_refl _, hrising⟩⟩
    rw [Range.contains_iff, floor_le_iff, le_ceiling_iff, Allows, hexact]
    simp

/-- Bounds that contradict each other in neither way are read as a range, or as none. -/
theorem exists_range (q : Quantity) (h : b.Agree) : ∃ found, b.range q = .ok found := by
  have hreads := b.reads_range q
  cases hrange : b.range q with
  | ok found => exact ⟨found, rfl⟩
  | error e =>
    rw [hrange] at hreads
    cases hreads with
    | mixed hexact hopen =>
      obtain ⟨hleast, hgreatest⟩ := h.alone hexact
      rcases hopen with hopen | hopen
      · exact absurd hleast hopen
      · exact absurd hgreatest hopen
    | inverted hexact hfalling => exact absurd (floor_le_ceiling_iff.2 h.rising) hfalling

/-- What is read from bounds is read from them rightly. -/
theorem readAs_range {q : Quantity} {found : Option Range} (h : b.range q = .ok found) :
    b.ReadAs found := by
  have hreads := b.reads_range q
  rw [h] at hreads
  cases hreads with
  | nothing hb => exact hb ▸ readAs_nothing
  | exact hb => exact hb ▸ readAs_exact _
  | span hexact hopen hrising => exact readAs_span hexact hopen hrising

/-- Bounds are described by one range at most. -/
theorem Describes.unique {r r' : Range} (h : b.Describes r) (h' : b.Describes r') : r = r' :=
  Range.eq_of_contains h.inhabited fun n => (h.contains_iff n).trans (h'.contains_iff n).symm

/-- Bounds are read in one way. -/
theorem ReadAs.unique {found found' : Option Range} (h : b.ReadAs found) (h' : b.ReadAs found') :
    found = found' := by
  have hsome := h.isSome_iff.trans h'.isSome_iff.symm
  cases found with
  | none =>
    cases found' with
    | none => rfl
    | some r' => cases hsome.2 rfl
  | some r =>
    cases found' with
    | none => cases hsome.1 rfl
    | some r' => rw [(h.describes r rfl).unique (h'.describes r' rfl)]

/-- **What a range says of its bounds**, says which range it is. -/
theorem range_eq_ok_iff {q : Quantity} {found : Option Range} :
    b.range q = .ok found ↔ b.ReadAs found := by
  constructor
  · exact readAs_range
  · intro h
    obtain ⟨found', hrange⟩ := exists_range q h.agree
    rw [hrange, (readAs_range hrange).unique h]

end Bounds

/-! ## Specifications -/

namespace Specification

/-- A specification without contradictions: the count is bounded, the bounds agree among each other,
and rows are bounded for statements only. -/
structure IsSound (spec : Specification) : Prop where
  count_given : spec.count.Given
  count_agree : spec.count.Agree
  rows_agree : spec.rows.Agree
  rows_apply : spec.rows.Given → ∀ matcher, spec.target ≠ .connections matcher

/-- The expectation asks for what the specification asks for. -/
structure Describes (spec : Specification) (e : Expectation) : Prop where
  target : e.target = spec.target
  threads : e.threads = spec.threads
  count : spec.count.Describes e.count
  rows_isSome_iff : e.rows.isSome = true ↔ spec.rows.Given
  rows : ∀ r, e.rows = some r → spec.rows.Describes r

end Specification

namespace Expectation

variable {spec : Specification} {e : Expectation}

/-- An expectation is made of two ranges, of which the one for the rows may be left out. -/
theorem exists_ranges (h : of spec = .ok e) :
    ∃ count rows,
      spec.count.range .count = .ok (some count) ∧ spec.rows.range .rows = .ok rows := by
  rw [of] at h
  cases hcount : spec.count.range .count with
  | error fault =>
    rw [hcount] at h
    cases h
  | ok found =>
    rw [hcount] at h
    cases found with
    | none => cases h
    | some count =>
      cases hrows : spec.rows.range .rows with
      | error fault =>
        rw [hrows] at h
        cases h
      | ok rows => exact ⟨count, rows, rfl, rfl⟩

/-- Two ranges make an expectation, unless the one for the rows is given for connections. -/
theorem of_eq_ok_iff {count : Range} {rows : Option Range}
    (hcount : spec.count.range .count = .ok (some count))
    (hrows : spec.rows.range .rows = .ok rows) :
    of spec = .ok e ↔
      (rows.isSome = true → ∀ matcher, spec.target ≠ .connections matcher) ∧
        ⟨spec.target, count, rows, spec.threads⟩ = e := by
  rw [of, hcount, hrows]
  cases htarget : spec.target with
  | statements kind => simp
  | connections matcher =>
    cases rows with
    | none => simp
    | some range => simp

end Expectation

/-- **Which specifications make expectations.**  A specification is taken if and only if it has no
contradictions, and it is made into the one expectation that asks for the same: of the same target
and threads, with a range for the count that holds just the numbers that every given bound allows,
and one at least; with a range for the rows if and only if a bound on them is given, and then in the
same way. -/
theorem specification_is_checked (spec : Specification) :
    ((∃ e, Expectation.of spec = .ok e) ↔ spec.IsSound) ∧
      ∀ e, Expectation.of spec = .ok e ↔ spec.IsSound ∧ spec.Describes e := by
  have hof : ∀ e, Expectation.of spec = .ok e ↔ spec.IsSound ∧ spec.Describes e := by
    intro e
    constructor
    · intro he
      obtain ⟨count, rows, hcount, hrows⟩ := Expectation.exists_ranges he
      obtain ⟨happly, rfl⟩ := (Expectation.of_eq_ok_iff hcount hrows).1 he
      have hcount := Bounds.readAs_range hcount
      have hrows := Bounds.readAs_range hrows
      have hgiven := hcount.isSome_iff.1 rfl
      exact ⟨⟨hgiven, hcount.agree, hrows.agree, fun h => happly (hrows.isSome_iff.2 h)⟩,
        ⟨rfl, rfl, hcount.describes count rfl, hrows.isSome_iff, hrows.describes⟩⟩
    · rintro ⟨hsound, htarget, hthreads, hcount, hrows_iff, hrows⟩
      have hcount : spec.count.ReadAs (some e.count) :=
        ⟨hsound.count_agree, iff_of_true rfl hsound.count_given,
          fun r hr => Option.some.inj hr ▸ hcount⟩
      have hrows : spec.rows.ReadAs e.rows := ⟨hsound.rows_agree, hrows_iff, hrows⟩
      refine (Expectation.of_eq_ok_iff (Bounds.range_eq_ok_iff.2 hcount)
        (Bounds.range_eq_ok_iff.2 hrows)).2 ⟨fun h => hsound.rows_apply (hrows_iff.1 h), ?_⟩
      rw [← htarget, ← hthreads]
  refine ⟨⟨?_, ?_⟩, hof⟩
  · rintro ⟨e, he⟩
    exact ((hof e).1 he).1
  · intro hsound
    obtain ⟨found, hcount⟩ := Bounds.exists_range .count hsound.count_agree
    obtain ⟨rows, hrows⟩ := Bounds.exists_range .rows hsound.rows_agree
    have hread := Bounds.readAs_range hcount
    obtain ⟨count, rfl⟩ := Option.isSome_iff_exists.1 (hread.isSome_iff.2 hsound.count_given)
    have happly := fun h => hsound.rows_apply ((Bounds.readAs_range hrows).isSome_iff.1 h)
    exact ⟨_, (Expectation.of_eq_ok_iff hcount hrows).2 ⟨happly, rfl⟩⟩

/-- A least number alone is open to the greatest word, and may be that word. -/
example :
    Expectation.of { count := { least := some 18446744073709551615 } } =
      .ok { target := .statements .any, count := ⟨greatest, greatest⟩, rows := none,
            threads := .current } := rfl

end Wiretap
