import Wiretap.Proofs.Application.Ledger
/-!
# Windows of a run

A spy is a window on a run that begins at one moment.  That is the moment at which the spy was
opened or last reset; adding expectations and closing the spy do not move it (`BeginsAt`).

What a window answers depends on the ledger at its beginning and on the ledger now.  Here it is
said how an evaluated expectation comes out of a spy, by `verify` and by `close`, and that a run
in which the ledger is never cleared has no clearing among its happenings.
-/

namespace Wiretap

namespace Spy

/-- The windows that begin at a moment at which the ledger was `l`. -/
inductive BeginsAt (l : Ledger) : Spy → Prop where
  | begin (creator : Thread) : BeginsAt l (Spy.begin creator l)
  | reset {s s' : Spy} (h : s.reset l = .ok s') : BeginsAt l s'
  | add {s s' : Spy} {e : Expectation} (hs : BeginsAt l s) (h : s.add e = .ok s') : BeginsAt l s'
  | close {s : Spy} (hs : BeginsAt l s) (l' : Ledger) : BeginsAt l (s.close l').2

/-- A spy that begins at a ledger has its baseline there. -/
theorem BeginsAt.baseline {l : Ledger} {s : Spy} (h : BeginsAt l s) : s.baseline = .of l := by
  induction h with
  | begin creator => rfl
  | reset h =>
    unfold Spy.reset at h
    split at h
    · cases h
    · cases h
      rfl
  | add hs h ih =>
    unfold Spy.add at h
    split at h
    · cases h
    · cases h
      exact ih
  | close hs l' ih =>
    unfold Spy.close
    split
    · exact ih
    · exact ih

/-- What an expectation comes to when it is held against a window. -/
def finding (s : Spy) (l : Ledger) (e : Expectation) : Finding := .evaluate e (s.observe l)

/-- **How a finding comes out of an open spy.**  Trying the expectation fails with the finding or
says that it passed, and closing the spy keeps the finding of every expectation in its place. -/
structure Yields (s : Spy) (l : Ledger) (e : Expectation) (f : Finding) : Prop where
  expectation : f.expectation = e
  failure : f.failure = Finding.failureOf e f.observed f.rows
  verify : s.verify l e = if f.passed = true then .ok () else .error (.violated ⟨[f]⟩)
  close : ∀ i : Nat, s.expectations[i]? = some e → (s.close l).2.findings[i]? = some f

/-- An open spy yields its finding. -/
theorem yields_finding {s : Spy} (hopen : s.closed = false) (l : Ledger) (e : Expectation) :
    s.Yields l e (s.finding l e) := by
  have hopen' : ¬ s.closed = true := by
    rw [hopen]
    exact Bool.false_ne_true
  refine ⟨?_, ?_, ?_, ?_⟩
  · unfold finding Finding.evaluate
    split <;> rfl
  · unfold finding Finding.evaluate
    split <;> rfl
  · unfold verify finding
    rw [if_neg hopen']
    cases hpassed : (Finding.evaluate e (s.observe l)).passed with
    | true => simp [Violation.among, hpassed]
    | false => simp [Violation.among, hpassed]
  · intro i hi
    unfold close finding
    rw [if_neg hopen', List.getElem?_map, hi]
    rfl

end Spy

namespace Application

variable {σ : Type}

/-- Where no action clears, nothing is cleared. -/
theorem cleared_notMem (a : Application σ) {actions : List (Action σ)}
    (h : Action.clear ∉ actions) : Happening.cleared ∉ a.happenings actions := by
  induction actions generalizing a with
  | nil => exact List.not_mem_nil
  | cons act rest ih =>
    rw [happenings_cons, List.mem_append]
    rintro (hnow | hlater)
    · cases sees_happening (Option.mem_toList.1 hnow) with
      | cleared hact =>
        rw [hact] at h
        exact h List.mem_cons_self
    · exact ih _ (fun hrest => h (List.mem_cons_of_mem _ hrest)) hlater

/-- An application at a new tap whose clock moves on with every reading. -/
def ticking : Application Unit := { tap := { clock := { step := 5 } }, outside := () }

end Application

end Wiretap
