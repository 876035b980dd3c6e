import Wiretap.Address
/-!
# Matchers: which addresses a question is about

A matcher may name a host, a port, both or neither; what it does not name, it leaves open.  Hosts
are compared without regard to ASCII letter case.  The written forms are `host`, `host:port`,
`*:port` and `*`; a text whose last colon follows another colon is an IPv6 literal without a
port, and so is a text without any colon a host.
-/

namespace Wiretap

/-- A host, a port, both or neither. -/
structure AddressMatcher where
  host : Option String := none
  port : Option UInt16 := none
  deriving DecidableEq, Repr, Inhabited

/-- Why a text is no matcher. -/
inductive MatcherError where
  /-- What follows the last colon of `text` is not a port. -/
  | invalidPort (text : String)
  deriving DecidableEq, Repr

/-- The words of the error. -/
def MatcherError.message : MatcherError → String
  | .invalidPort text => s!"invalid port in address '{text}'"

namespace AddressMatcher

/-- The matcher of every address. -/
def any : AddressMatcher := {}

/-- Whether the address is one that the matcher leaves open or names. -/
def accepts (m : AddressMatcher) (a : Address) : Bool :=
  m.host.all (Text.sameFolded · a.host) && m.port.all (· == a.port)

/-- The written form of a matcher. -/
def text (m : AddressMatcher) : String :=
  match m.host, m.port with
  | some host, some port => (Address.mk host port).text
  | some host, none => host
  | none, some port => s!"*:{port}"
  | none, none => "any address"

/-- The host that a piece of matcher text names: none when it is empty or a star. -/
def namedHost (cs : List Char) : Option String :=
  let host := Text.unbracket cs
  if host = [] ∨ host = ['*'] then none else some (String.ofList host)

/-- The host part and the port part of trimmed matcher text.  There is no port part where the
last colon follows another one. -/
def parts (cs : List Char) : List Char × Option (List Char) :=
  match Text.splitLast? ':' cs with
  | some (front, back) => if front.getLast? = some ':' then (cs, none) else (front, some back)
  | none => (cs, none)

/-- Reads `host`, `host:port`, `*:port` or `*`. -/
def parse (s : String) : Except MatcherError AddressMatcher :=
  let cs := Text.trimChars s.toList
  match parts cs with
  | (host, none) => .ok { host := namedHost host }
  | (host, some back) =>
    match Text.uint16? back with
    | some port => .ok { host := namedHost host, port := some port }
    | none => .error (.invalidPort (String.ofList cs))

end AddressMatcher

end Wiretap
