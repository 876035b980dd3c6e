import Mathlib.Data.List.DropRight
import Wiretap.Policy.Registry
import Wiretap.Proofs.Lookup
/-!
# Rules as a history of touches, and which of them decides

Between two times that a registry is emptied, the rules of one kind of pattern change in two ways
only: a rule is **set**, or a pattern is **seen**, which notes it where it has no rule.  This file
reads the whole table of rules off that history, and the ruling off the table.

* `Touches.get?_rules` — after any history the table holds for each pattern the last status that was
  set, the mark of a noted pattern if it was only seen, and nothing otherwise;
* `ruling_eq_firstSet` — where the patterns of any table that cover what is asked about form a chain
  of falling specificity, the ruling is the status of the first of them that was set.  The rows of
  the table are walked in their own order, so this is where ties have to be ruled out.
-/

namespace Wiretap

/-- The status that a rule was set to; a rule that was only noted was set to none. -/
def Rule.set? (rule : Rule) : Option Status :=
  if rule.discovered then none else some rule.status

/-- A rule that was set has the status to which it was set. -/
theorem Rule.status_of_set? {rule : Rule} {status : Status} (h : rule.set? = some status) :
    rule.status = status := by
  unfold Rule.set? at h
  split at h
  · cases h
  · exact Option.some.inj h

/-- The status that a table of rules has set for a pattern, if it has. -/
def Registry.setIn {κ : Type u} [BEq κ] (t : Table κ Rule) (p : κ) : Option Status :=
  (t.get? p).bind Rule.set?

/-- What happens to the rules of one kind of pattern. -/
inductive Touch (κ : Type u) where
  /-- A rule is set. -/
  | set (pattern : κ) (status : Status)
  /-- The pattern is asked about. -/
  | seen (pattern : κ)
  deriving DecidableEq, Repr

namespace Touch

variable {κ : Type u} [DecidableEq κ]

/-- The pattern that is touched. -/
def pattern : Touch κ → κ
  | set p _ => p
  | seen p => p

/-- The status that a touch sets for a pattern. -/
def statusFor (p : κ) : Touch κ → Option Status
  | set q status => if q = p then some status else none
  | seen _ => none

/-- Of touches of different patterns at most one sets a given pattern. -/
theorem statusFor_or_comm {a b : Touch κ} (h : a.pattern ≠ b.pattern) (p : κ) :
    (b.statusFor p).or (a.statusFor p) = (a.statusFor p).or (b.statusFor p) := by
  cases a with
  | seen _ => simp [statusFor]
  | set q status =>
    cases b with
    | seen _ => simp [statusFor]
    | set r status' =>
      have hne : q ≠ r := h
      by_cases hq : q = p
      · have hr : ¬ r = p := fun hr => hne (hq.trans hr.symm)
        simp [statusFor, hq, hr]
      · simp [statusFor, hq]

/-- The rules after one touch. -/
def apply (rules : Table κ Rule) : Touch κ → Table κ Rule
  | set p status => rules.insert p { status := status }
  | seen p => if rules.contains p then rules else rules.insert p .noted

end Touch

/-- A history of touches, oldest first. -/
abbrev Touches (κ : Type u) := List (Touch κ)

namespace Touches

variable {κ : Type u} [DecidableEq κ]

/-- The status that was set last for a pattern, if any was. -/
def lastSet (touches : Touches κ) (p : κ) : Option Status :=
  touches.reverse.findSome? (Touch.statusFor p)

/-- **The reference.**  A pattern has the rule that was set for it last; one that was touched and
never set is noted; one that was never touched has no rule. -/
def rule? (touches : Touches κ) (p : κ) : Option Rule :=
  match touches.lastSet p with
  | some status => some { status := status }
  | none => if p ∈ touches.map Touch.pattern then some .noted else none

/-- The later of two setters has the last word. -/
theorem lastSet_append (earlier later : Touches κ) (p : κ) :
    lastSet (earlier ++ later) p = (later.lastSet p).or (earlier.lastSet p) := by
  simp [lastSet, List.reverse_append, List.findSome?_append]

/-- A touch that sets a pattern has the last word on it. -/
theorem lastSet_concat (touches : Touches κ) (touch : Touch κ) (p : κ) :
    lastSet (touches ++ [touch]) p = (touch.statusFor p).or (touches.lastSet p) := by
  rw [lastSet_append]
  simp only [lastSet, List.reverse_singleton, List.findSome?_singleton]

/-- Setting a pattern is touching it. -/
theorem mem_pattern_of_lastSet {touches : Touches κ} {p : κ} {status : Status}
    (h : touches.lastSet p = some status) : p ∈ touches.map Touch.pattern := by
  obtain ⟨touch, hmem, hset⟩ := List.exists_of_findSome?_eq_some h
  refine List.mem_map.2 ⟨touch, List.mem_reverse.1 hmem, ?_⟩
  cases touch with
  | seen q => cases hset
  | set q s =>
    by_cases hq : q = p
    · exact hq
    · simp [Touch.statusFor, hq] at hset

/-- A pattern has a rule exactly when it was touched. -/
theorem isSome_rule? (touches : Touches κ) (p : κ) :
    (touches.rule? p).isSome = true ↔ p ∈ touches.map Touch.pattern := by
  unfold rule?
  cases hset : touches.lastSet p with
  | some status => simpa using List.mem_map.1 (mem_pattern_of_lastSet hset)
  | none =>
    by_cases hmem : p ∈ touches.map Touch.pattern
    · simp only [hmem, if_true, Option.isSome_some]
    · simp only [hmem, if_false, Option.isSome_none, Bool.false_eq_true]

/-- A pattern that is set has the rule that was set, and the others keep theirs. -/
theorem rule?_concat_set (touches : Touches κ) (q : κ) (status : Status) (p : κ) :
    rule? (touches ++ [.set q status]) p =
      if q = p then some { status := status } else touches.rule? p := by
  unfold rule?
  rw [lastSet_concat]
  by_cases hq : q = p
  · simp [Touch.statusFor, hq]
  · have hne : ¬ p = q := fun h => hq h.symm
    simp [Touch.statusFor, hq, hne, Touch.pattern]

/-- A pattern that is seen is noted, unless it has a rule. -/
theorem rule?_concat_seen (touches : Touches κ) (q p : κ) :
    rule? (touches ++ [.seen q]) p =
      if q = p ∧ touches.rule? p = none then some .noted else touches.rule? p := by
  have hlast : lastSet (touches ++ [.seen q]) p = touches.lastSet p := by
    rw [lastSet_concat]
    rfl
  unfold rule?
  rw [hlast]
  cases touches.lastSet p with
  | some status => simp
  | none =>
    by_cases hq : q = p
    · by_cases hmem : p ∈ touches.map Touch.pattern <;> simp [hq, Touch.pattern]
    · have hne : ¬ p = q := fun h => hq h.symm
      simp [hq, hne, Touch.pattern]

/-- The rules after a history of touches, beginning with none. -/
def rules (touches : Touches κ) : Table κ Rule :=
  touches.foldl Touch.apply .empty

/-- **The table refines the reference.**  By induction on the history; a touch of the pattern
itself is one of the three things the reference says, and any other touch leaves it alone. -/
theorem get?_rules (touches : Touches κ) (p : κ) :
    touches.rules.get? p = touches.rule? p := by
  induction touches using List.reverseRecOn with
  | nil => rfl
  | append_singleton touches touch ih =>
    have hstep : rules (touches ++ [touch]) = touch.apply (rules touches) := by
      simp [rules, List.foldl_append]
    rw [hstep]
    cases touch with
    | set q status =>
      rw [rule?_concat_set]
      by_cases hq : q = p
      · subst hq
        rw [if_pos rfl]
        exact Table.get?_insert_self _ _ _
      · rw [if_neg hq, ← ih]
        exact Table.get?_insert_other _ (beq_eq_false_iff_ne.2 hq) _
    | seen q =>
      have hseen : Touch.apply (rules touches) (.seen q) =
          if (rules touches).contains q then rules touches
          else (rules touches).insert q .noted := rfl
      rw [rule?_concat_seen, ← ih, hseen]
      by_cases hq : q = p
      · subst hq
        cases hget : (rules touches).get? q with
        | some rule => simp [Table.contains_eq_isSome, hget]
        | none => simp [Table.contains_eq_isSome, hget, Table.get?_insert_self]
      · have hother : ¬ (q = p ∧ (rules touches).get? p = none) := fun h => hq h.1
        rw [if_neg hother]
        split
        · rfl
        · exact Table.get?_insert_other _ (beq_eq_false_iff_ne.2 hq) _

/-- What the table has set is what was set last. -/
theorem setIn_rules (touches : Touches κ) : Registry.setIn touches.rules = touches.lastSet := by
  funext p
  rw [Registry.setIn, get?_rules, rule?]
  cases touches.lastSet p with
  | some status => rfl
  | none =>
    by_cases hmem : p ∈ touches.map Touch.pattern
    · rw [if_pos hmem]
      rfl
    · rw [if_neg hmem]
      rfl

/-- The table has the patterns that were touched. -/
theorem contains_rules {touches : Touches κ} {p : κ} :
    touches.rules.contains p = true ↔ p ∈ touches.map Touch.pattern := by
  rw [Table.contains_eq_isSome, get?_rules, isSome_rule?]

end Touches

namespace Registry

variable {κ : Type u}

/-- Of the rows that may decide, `better` keeps one that no other is more specific than. -/
theorem foldl_better (specificity : κ → Nat) (rows : List (κ × Rule)) :
    ∀ first : κ × Rule, ∃ best ∈ first :: rows,
      rows.foldl (better specificity) (some first) = some best ∧
        ∀ row ∈ first :: rows, specificity row.1 ≤ specificity best.1 := by
  induction rows with
  | nil => exact fun first => ⟨first, by simp, rfl, by simp⟩
  | cons row rest ih =>
    intro first
    have hstep : better specificity (some first) row =
        if specificity first.1 < specificity row.1 then some row else some first := rfl
    rw [List.foldl_cons, hstep]
    by_cases hlt : specificity first.1 < specificity row.1
    · obtain ⟨best, hmem, hfold, hbest⟩ := ih row
      refine ⟨best, List.mem_cons_of_mem _ hmem, ?_, ?_⟩
      · rw [if_pos hlt]
        exact hfold
      · intro r hr
        rcases List.mem_cons.1 hr with rfl | hr
        · exact Nat.le_trans (Nat.le_of_lt hlt) (hbest row (by simp))
        · exact hbest r hr
    · obtain ⟨best, hmem, hfold, hbest⟩ := ih first
      refine ⟨best, ?_, ?_, ?_⟩
      · rcases List.mem_cons.1 hmem with rfl | hmem
        · simp
        · simp [hmem]
      · rw [if_neg hlt]
        exact hfold
      · intro r hr
        rcases List.mem_cons.1 hr with rfl | hr
        · exact hbest r (by simp)
        · rcases List.mem_cons.1 hr with rfl | hr
          · exact Nat.le_trans (Nat.le_of_not_lt hlt) (hbest first (by simp))
          · exact hbest r (List.mem_cons_of_mem _ hr)

/-- No row decides exactly where the way is open for want of a rule. -/
theorem ruling_of_deciding_eq_nil {covers : κ → Bool} {specificity : κ → Nat}
    {rows : List (κ × Rule)} (h : deciding covers rows = []) :
    ruling covers specificity rows = .opened := by
  rw [ruling, h]
  rfl

/-- Where rows decide, one of them that is as specific as any gives the status. -/
theorem exists_ruling {covers : κ → Bool} (specificity : κ → Nat) {rows : List (κ × Rule)}
    (h : deciding covers rows ≠ []) :
    ∃ best ∈ deciding covers rows, ruling covers specificity rows = best.2.status ∧
      ∀ row ∈ deciding covers rows, specificity row.1 ≤ specificity best.1 := by
  obtain ⟨first, rest, hrows⟩ := List.exists_cons_of_ne_nil h
  obtain ⟨best, hmem, hfold, hbest⟩ := foldl_better specificity rest first
  rw [hrows]
  refine ⟨best, hmem, ?_, hbest⟩
  have hstart : better specificity none first = some first := rfl
  rw [ruling, hrows, List.foldl_cons, hstart, hfold]
  rfl

variable [DecidableEq κ]

/-- A row may decide exactly when its pattern covers what is asked about and was set. -/
theorem mem_deciding {covers : κ → Bool} {t : Table κ Rule} {row : κ × Rule} :
    row ∈ deciding covers t.rows ↔
      covers row.1 = true ∧ t.get? row.1 = some row.2 ∧ row.2.set? = some row.2.status := by
  have hrow : row ∈ t.rows ↔ t.get? row.1 = some row.2 := by
    constructor
    · exact Table.get?_of_mem_rows
    · intro hget
      obtain ⟨p, hp, hmem⟩ := Table.get?_eq_some_iff.1 hget
      rwa [eq_of_beq hp] at hmem
  have hset : row.2.set? = some row.2.status ↔ row.2.discovered = false := by
    unfold Rule.set?
    cases row.2.discovered <;> simp
  rw [deciding, List.mem_filter, hrow, hset, Bool.and_eq_true, Bool.not_eq_true']
  constructor
  · rintro ⟨hget, hfresh, hcovers⟩
    exact ⟨hcovers, hget, hfresh⟩
  · rintro ⟨hcovers, hget, hfresh⟩
    exact ⟨hget, hfresh, hcovers⟩

/-- **The first that was set decides.**  Let the patterns of a table that cover what is asked about
fall in specificity.  Then no two of them tie, so whatever order the rows of the table have, the
ruling is the status of the first of these patterns that was set. -/
theorem ruling_eq_firstSet {covers : κ → Bool} {specificity : κ → Nat} {t : Table κ Rule}
    {chain : List κ} (hchain : ∀ p, t.contains p = true → (covers p = true ↔ p ∈ chain))
    (hfall : chain.Pairwise fun p q => specificity q < specificity p) :
    ruling covers specificity t.rows = (chain.findSome? (setIn t)).getD .opened := by
  have hin : ∀ p, (t.get? p).isSome = true → (covers p = true ↔ p ∈ chain) := by
    intro p hp
    rw [← Table.contains_eq_isSome] at hp
    exact hchain p hp
  cases hfirst : chain.findSome? (setIn t) with
  | none =>
    have hunset := List.findSome?_eq_none_iff.1 hfirst
    refine ruling_of_deciding_eq_nil (List.eq_nil_iff_forall_not_mem.2 fun row hrow => ?_)
    obtain ⟨hcovers, hget, hset⟩ := mem_deciding.1 hrow
    have hmem := (hin row.1 (by rw [hget]; rfl)).1 hcovers
    have hnone := hunset row.1 hmem
    rw [setIn, hget, Option.bind_some, hset] at hnone
    cases hnone
  | some status =>
    obtain ⟨before, p, after, rfl, hp, hunset⟩ := List.findSome?_eq_some_iff.1 hfirst
    obtain ⟨rule, hget, hset⟩ := Option.bind_eq_some_iff.1 hp
    have hstatus : rule.status = status := Rule.status_of_set? hset
    subst hstatus
    have hcovers : covers p = true := (hin p (by rw [hget]; rfl)).2 (by simp)
    have hrow : (p, rule) ∈ deciding covers t.rows := mem_deciding.2 ⟨hcovers, hget, hset⟩
    obtain ⟨best, hbest, hruling, hmost⟩ :=
      exists_ruling specificity (List.ne_nil_of_mem hrow)
    obtain ⟨hbcovers, hbget, hbset⟩ := mem_deciding.1 hbest
    have hbmem := (hin best.1 (by rw [hbget]; rfl)).1 hbcovers
    -- The best row stands nowhere in the chain but at `p`: before it nothing was set, and what
    -- stands after it is less specific.
    have hsame : best.1 = p := by
      rcases List.mem_append.1 hbmem with hbefore | htail
      · have hnone := hunset best.1 hbefore
        rw [setIn, hbget, Option.bind_some, hbset] at hnone
        cases hnone
      · rcases List.mem_cons.1 htail with heq | hafter
        · exact heq
        · have htailFall := (List.pairwise_append.1 hfall).2.1
          have hless := (List.pairwise_cons.1 htailFall).1 best.1 hafter
          have hge := hmost _ hrow
          exact absurd hless (Nat.not_lt_of_le hge)
    rw [hsame, hget, Option.some.injEq] at hbget
    rw [hruling, ← hbget]
    rfl

end Registry

end Wiretap
