import Wiretap.Text.Blank
import Wiretap.Text.AsciiCase
import Wiretap.Text.Decimal
import Wiretap.Text.Pieces
/-!
# Addresses of remote endpoints

An address is the host as the application named it, and a port.  Its text is `host:port`; a host
that holds a colon, as an IPv6 literal does, stands in square brackets.  Reading takes the last
colon as the mark before the port, drops one pair of brackets, and refuses an empty host.
-/

namespace Wiretap

/-- A remote endpoint as the application asked for it. -/
structure Address where
  host : String
  port : UInt16
  deriving DecidableEq, Repr, Inhabited

namespace Address

/-- The written form of an address. -/
def text (a : Address) : String :=
  if ':' ∈ a.host.toList then s!"[{a.host}]:{a.port}" else s!"{a.host}:{a.port}"

/-- Reads `host:port` or `[host]:port`. -/
def parse? (s : String) : Option Address := do
  let (front, back) ← Text.splitLast? ':' s.toList
  let host := Text.unbracket front
  if host.isEmpty then none
  let port ← Text.uint16? back
  return ⟨String.ofList host, port⟩

/-- By host, code point by code point, then by port. -/
def order (a b : Address) : Ordering :=
  (compare a.host b.host).then (compare a.port b.port)

/-- The order tells any two addresses apart. -/
theorem eq_of_order {a b : Address} (h : a.order b = .eq) : a = b := by
  obtain ⟨hhost, hport⟩ := Ordering.then_eq_eq.1 h
  rw [Address.mk.injEq]
  exact ⟨Std.LawfulEqOrd.eq_of_compare hhost, Std.LawfulEqOrd.eq_of_compare hport⟩

end Address

end Wiretap
