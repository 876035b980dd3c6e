import Wiretap.Text.AsciiCase
import Wiretap.Address
/-!
# Policy patterns and refusals

A rule of the policy is kept under a **pattern**: for sockets a host, a port, both or neither, and
for data sources a URL, a user, both or neither.  What a pattern does not name it leaves open, and
a rule whose pattern names more goes before one that names less (`specificity`).

The host of a socket pattern is kept in lower case, so patterns that differ only in the case of
ASCII letters are one (`SocketPattern.of`).  URLs and users are taken as they are.
-/

namespace Wiretap

/-- Which sockets a rule is about. -/
structure SocketPattern where
  host : Option String := none
  port : Option UInt16 := none
  deriving DecidableEq, Repr, Inhabited

namespace SocketPattern

/-- The pattern of a host and a port, either of which may be left open. -/
def of (host : Option String) (port : Option UInt16) : SocketPattern :=
  ⟨host.map Text.lowerAscii, port⟩

/-- The pattern of one socket. -/
def exact (host : String) (port : UInt16) : SocketPattern := of (some host) (some port)

/-- Whether the rule is about this socket. -/
def covers (p : SocketPattern) (host : String) (port : UInt16) : Bool :=
  p.host.all (Text.sameFolded · host) && p.port.all (· == port)

/-- Host and port go before host alone, host alone before port alone, and that before neither. -/
def specificity (p : SocketPattern) : Nat :=
  match p.host, p.port with
  | some _, some _ => 3
  | some _, none => 2
  | none, some _ => 1
  | none, none => 0

/-- The written form of a pattern, with a star for what is left open. -/
def text (p : SocketPattern) : String :=
  let host := p.host.getD "*"
  match p.port with
  | some port => s!"{host}:{port}"
  | none => s!"{host}:*"

/-- By host, then by port, what is left open first. -/
def order (a b : SocketPattern) : Ordering :=
  (compare a.host b.host).then (compare a.port b.port)

end SocketPattern

/-- Which data sources a rule is about. -/
structure DataSourcePattern where
  url : Option String := none
  user : Option String := none
  deriving DecidableEq, Repr, Inhabited

namespace DataSourcePattern

/-- Whether the rule is about this data source. -/
def covers (p : DataSourcePattern) (url : String) (user : Option String) : Bool :=
  p.url.all (· == url) && p.user.all (some · == user)

/-- URL and user go before URL alone, URL alone before user alone, and that before neither. -/
def specificity (p : DataSourcePattern) : Nat :=
  match p.url, p.user with
  | some _, some _ => 3
  | some _, none => 2
  | none, some _ => 1
  | none, none => 0

/-- The written form of a pattern, with a star for what is left open. -/
def text (p : DataSourcePattern) : String :=
  let url := p.url.getD "*"
  let user := p.user.getD "*"
  s!"{url} (user {user})"

/-- By URL, then by user, what is left open first. -/
def order (a b : DataSourcePattern) : Ordering :=
  (compare a.url b.url).then (compare a.user b.user)

end DataSourcePattern

/-- A connection that the policy refused. -/
structure Refusal where
  /-- What was not reached. -/
  target : String
  deriving DecidableEq, Repr, Inhabited

namespace Refusal

/-- The refusal of a socket. -/
def socket (address : Address) : Refusal := ⟨address.text⟩

/-- The refusal of a data source. -/
def dataSource (url : String) (user : Option String) : Refusal :=
  match user with
  | some user => ⟨s!"{url} (user {user})"⟩
  | none => ⟨url⟩

/-- The words of the refusal. -/
def message (r : Refusal) : String := s!"connection to {r.target} refused by policy"

end Refusal

end Wiretap
