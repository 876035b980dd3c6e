/-!
# Threads and thread scopes

A thread is told apart by its number alone; its name is for the reader.  So `==` on threads
compares numbers, and is coarser than equality.  A **scope** says which threads a query or an
expectation looks at, seen from the thread that asks.
-/

namespace Wiretap

/-- A thread that performed input or output. -/
structure Thread where
  id : Nat
  name : Option String := none
  deriving Repr, Inhabited

namespace Thread

instance : BEq Thread := ⟨fun a b => a.id == b.id⟩

/-- Threads are equal when their numbers are; the names take no part. -/
theorem beq_iff {a b : Thread} : (a == b) = true ↔ a.id = b.id := by
  show (a.id == b.id) = true ↔ _
  exact beq_iff_eq

instance : EquivBEq Thread where
  rfl := beq_iff.2 rfl
  symm h := beq_iff.2 (beq_iff.1 h).symm
  trans h h' := beq_iff.2 ((beq_iff.1 h).trans (beq_iff.1 h'))

/-- The name with the number behind it, or the number alone. -/
def text (t : Thread) : String :=
  match t.name with
  | some name => s!"{name} (#{t.id})"
  | none => s!"#{t.id}"

end Thread

/-- Which threads count, seen from the thread that asks. -/
inductive Scope where
  | current
  | others
  | any
  deriving DecidableEq, Repr, Inhabited

namespace Scope

/-- Whether input or output of `owner` counts for `creator`. -/
def selects (scope : Scope) (owner creator : Thread) : Bool :=
  match scope with
  | current => owner == creator
  | others => !(owner == creator)
  | any => true

/-- The scope in the words of a report. -/
def text : Scope → String
  | current => "current thread"
  | others => "other threads"
  | any => "all threads"

/-- The thread that asks and the others are all there are, and no thread is both. -/
theorem selects_others (owner creator : Thread) :
    others.selects owner creator = !current.selects owner creator := rfl

/-- A scope knows a thread by its number alone. -/
theorem selects_congr (scope : Scope) {owner owner' : Thread} (h : owner.id = owner'.id)
    (creator : Thread) : scope.selects owner creator = scope.selects owner' creator := by
  have hthread : (owner == creator) = (owner' == creator) := BEq.congr_left (Thread.beq_iff.2 h)
  cases scope <;> simp only [selects, hthread]

end Scope

end Wiretap
