import Wiretap.Address
import Wiretap.Thread
/-!
# Identities of connections

Input and output is accounted under an identity: the address, an ordinal that tells connections
to one address apart, the thread, and the call site if it was captured.  Two identities are the
same (`==`) when all four agree, the thread by its number alone.  They belong to one
**connection** when address and ordinal agree, whoever used it and from wherever.
-/

namespace Wiretap

/-- One logical connection, as used by one thread from one call site. -/
structure ConnectionId where
  address : Address
  ordinal : UInt32
  owner : Thread
  trace : Option String := none
  deriving Repr, Inhabited

namespace ConnectionId

/-- What an identity is told apart by. -/
def key (c : ConnectionId) : Address × UInt32 × Nat × Option String :=
  (c.address, c.ordinal, c.owner.id, c.trace)

instance : BEq ConnectionId := ⟨fun a b => a.key == b.key⟩

/-- Identities are equal when their keys are; the names of threads take no part. -/
theorem beq_iff {a b : ConnectionId} : (a == b) = true ↔ a.key = b.key := by
  show (a.key == b.key) = true ↔ _
  exact beq_iff_eq

instance : EquivBEq ConnectionId where
  rfl := beq_iff.2 rfl
  symm h := beq_iff.2 (beq_iff.1 h).symm
  trans h h' := beq_iff.2 ((beq_iff.1 h).trans (beq_iff.1 h'))

/-- The connection itself: its address and ordinal. -/
def connection (c : ConnectionId) : Address × UInt32 := (c.address, c.ordinal)

/-- Whether two identities belong to one connection. -/
def sameConnection (a b : ConnectionId) : Bool := a.connection == b.connection

/-- The identity under which another thread uses the connection; it has no call site. -/
def onThread (c : ConnectionId) (t : Thread) : ConnectionId :=
  { c with owner := t, trace := none }

/-- The identity without its call site. -/
def withoutTrace (c : ConnectionId) : ConnectionId := { c with trace := none }

/-- The connection in words. -/
def text (c : ConnectionId) : String := s!"Connection #{c.ordinal} to {c.address.text}"

/-- By address, ordinal, thread and call site, those without one first. -/
def order (a b : ConnectionId) : Ordering :=
  (a.address.order b.address).then <| (compare a.ordinal b.ordinal).then <|
    (compare a.owner.id b.owner.id).then (compare a.trace b.trace)

end ConnectionId

end Wiretap
