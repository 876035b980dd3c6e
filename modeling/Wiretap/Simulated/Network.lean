import Wiretap.Address
import Wiretap.Table
/-!
# A simulated network

A network that answers from memory: each address gives every new connection the same bytes to
read, takes all bytes that are written, and may refuse connections.  An address that nobody spoke
of accepts connections and says nothing.
-/

namespace Wiretap.Simulated

/-- The network refused a connection. -/
structure Unreachable where
  address : Address
  deriving DecidableEq, Repr, Inhabited

/-- The words of the error. -/
def Unreachable.message (u : Unreachable) : String :=
  s!"mock endpoint {u.address.text} refused the connection"

/-- A network that answers from memory. -/
structure Network where
  /-- What each address says on a new connection. -/
  responses : Table Address (List UInt8) := .empty
  /-- The addresses that refuse connections. -/
  refused : List Address := []
  /-- The addresses that connections were tried to, oldest first. -/
  attempts : List Address := []
  /-- The bytes that were written to each address, newest first. -/
  newestFirst : Table Address (List UInt8) := .empty
  deriving Inhabited

/-- The far end of a connection. -/
structure Remote where
  address : Address
  /-- The bytes that are still to be read. -/
  incoming : List UInt8
  deriving DecidableEq, Repr, Inhabited

namespace Network

/-- Makes an address refuse connections. -/
def refuse (n : Network) (address : Address) : Network :=
  { n with refused := address :: n.refused }

/-- Connects to an address. -/
def connect (address : Address) (n : Network) : Except Unreachable Remote × Network :=
  let n := { n with attempts := n.attempts ++ [address] }
  if address ∈ n.refused then (.error ⟨address⟩, n)
  else (.ok ⟨address, (n.responses.get? address).getD []⟩, n)

/-- All that was written to an address. -/
def sentTo (n : Network) (address : Address) : List UInt8 :=
  ((n.newestFirst.get? address).getD []).reverse

/-- Writes to the far end of a connection, which takes everything. -/
def write (r : Remote) (bytes : List UInt8) (n : Network) : Except Unreachable Nat × Network :=
  (.ok bytes.length,
    { n with
      newestFirst := n.newestFirst.alter r.address fun before => bytes.reverse ++ before.getD [] })

end Network

/-- Reads at most so many bytes from the far end of a connection. -/
def Remote.read (count : Nat) (r : Remote) : Except Unreachable (List UInt8) × Remote :=
  (.ok (r.incoming.take count), { r with incoming := r.incoming.drop count })

/-- Makes sure of what was written; the far end took it at once. -/
def Remote.flush (r : Remote) : Except Unreachable Unit × Remote := (.ok (), r)

end Wiretap.Simulated
