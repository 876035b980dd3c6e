import Wiretap.Table
import Wiretap.Policy.Pattern
import Wiretap.Policy.Document
/-!
# The policy registry: rules about sockets and data sources

A rule gives the status of all sockets, or all data sources, that its pattern covers.  Of the rules
that were **set** the one with the most specific pattern decides; where none covers, the way is
open.  Every socket and data source that was asked about is also noted, as an open rule that is
marked **discovered**, so that it shows in listings; such a rule never decides anything.

A registry is written down as a document (`toDocument`), its rules in the order of their patterns,
and made of one (`ofDocument`); of two records with one pattern the later stands.
-/

namespace Wiretap

/-- What a registry holds for a pattern. -/
structure Rule where
  status : Status
  /-- Whether the rule was only noted, and not set. -/
  discovered : Bool := false
  deriving DecidableEq, Repr, Inhabited

/-- The rule that notes what was asked about. -/
def Rule.noted : Rule := { status := .opened, discovered := true }

/-- A row of a listing. -/
inductive Entry where
  | socket (pattern : SocketPattern) (rule : Rule)
  | dataSource (pattern : DataSourcePattern) (rule : Rule)
  deriving DecidableEq, Repr

namespace Entry

/-- A text filled up with blanks to a width. -/
def padded (width : Nat) (s : String) : String :=
  s ++ String.ofList (List.replicate (width - s.length) ' ')

/-- The columns of a row. -/
def columns (kind pattern : String) (rule : Rule) : String :=
  let mark := if rule.discovered then " (discovered)" else ""
  s!"{padded 10 kind} {padded 40 pattern} {rule.status.text}{mark}"

/-- The row as a line of a listing. -/
def line : Entry → String
  | socket pattern rule => columns "socket" pattern.text rule
  | dataSource pattern rule => columns "datasource" pattern.text rule

end Entry

/-- The rules, and whether and where they are to be kept. -/
structure Registry where
  sockets : Table SocketPattern Rule := .empty
  dataSources : Table DataSourcePattern Rule := .empty
  /-- Whether every change is to be kept on disk. -/
  persistent : Bool := false
  /-- The path of the file that keeps the rules, as it is written. -/
  storage : Option String := none
  deriving Inhabited

namespace Registry

/-- The better of two rules: the more specific, or the first where they are equally so. -/
def better (specificity : κ → Nat) (best : Option (κ × Rule)) (row : κ × Rule) :
    Option (κ × Rule) :=
  match best with
  | none => some row
  | some b => if specificity b.1 < specificity row.1 then some row else some b

/-- The rows that may decide: those that were set and cover what is asked about. -/
def deciding (covers : κ → Bool) (rows : List (κ × Rule)) : List (κ × Rule) :=
  rows.filter fun row => !row.2.discovered && covers row.1

/-- The status that the most specific of the deciding rows gives. -/
def ruling (covers : κ → Bool) (specificity : κ → Nat) (rows : List (κ × Rule)) : Status :=
  (((deciding covers rows).foldl (better specificity) none).map fun row => row.2.status).getD
    .opened

/-- The status of a socket. -/
def socketStatus (r : Registry) (host : String) (port : UInt16) : Status :=
  ruling (·.covers host port) SocketPattern.specificity r.sockets.rows

/-- The status of a data source. -/
def dataSourceStatus (r : Registry) (url : String) (user : Option String) : Status :=
  ruling (·.covers url user) DataSourcePattern.specificity r.dataSources.rows

/-- Sets the rule of a socket pattern. -/
def setSocket (r : Registry) (pattern : SocketPattern) (status : Status) : Registry :=
  { r with sockets := r.sockets.insert pattern { status := status } }

/-- Sets the rule of a data source pattern. -/
def setDataSource (r : Registry) (pattern : DataSourcePattern) (status : Status) : Registry :=
  { r with dataSources := r.dataSources.insert pattern { status := status } }

/-- Notes a socket that was asked about, if its pattern has no rule yet. -/
def noteSocket (r : Registry) (host : String) (port : UInt16) : Registry :=
  let pattern := SocketPattern.exact host port
  if r.sockets.contains pattern then r
  else { r with sockets := r.sockets.insert pattern .noted }

/-- Notes a data source that was asked about, if its pattern has no rule yet. -/
def noteDataSource (r : Registry) (url : String) (user : Option String) : Registry :=
  let pattern : DataSourcePattern := ⟨some url, user⟩
  if r.dataSources.contains pattern then r
  else { r with dataSources := r.dataSources.insert pattern .noted }

/-- The registry without rules; it is not to be kept any more. -/
def clear (r : Registry) : Registry :=
  { r with sockets := .empty, dataSources := .empty, persistent := false }

/-- The socket rules in the order of their patterns. -/
def socketRows (r : Registry) : List (SocketPattern × Rule) := r.sockets.sorted SocketPattern.order

/-- The data source rules in the order of their patterns. -/
def dataSourceRows (r : Registry) : List (DataSourcePattern × Rule) :=
  r.dataSources.sorted DataSourcePattern.order

/-- All rules, those about sockets first. -/
def entries (r : Registry) : List Entry :=
  (r.socketRows.map fun (pattern, rule) => Entry.socket pattern rule) ++
    r.dataSourceRows.map fun (pattern, rule) => Entry.dataSource pattern rule

/-- The registry as a document. -/
def toDocument (r : Registry) : Document where
  persistent := r.persistent
  sockets := r.socketRows.map fun (pattern, rule) =>
    { host := pattern.host, port := pattern.port, status := rule.status,
      discovered := rule.discovered }
  dataSources := r.dataSourceRows.map fun (pattern, rule) =>
    { url := pattern.url, user := pattern.user, status := rule.status,
      discovered := rule.discovered }

/-- Takes over the records of a document; a document can switch keeping on, and not off. -/
def apply (r : Registry) (d : Document) : Registry :=
  { r with
    sockets := r.sockets.insertAll <| d.sockets.map fun record =>
      (SocketPattern.of record.host record.port, ⟨record.status, record.discovered⟩)
    dataSources := r.dataSources.insertAll <| d.dataSources.map fun record =>
      (⟨record.url, record.user⟩, ⟨record.status, record.discovered⟩)
    persistent := r.persistent || d.persistent }

/-- The registry that a document describes. -/
def ofDocument (d : Document) : Registry := ({} : Registry).apply d

/-- The registry as JSON text. -/
def toJson (r : Registry) : String := r.toDocument.compact

/-- The registry that a text in JSON describes. -/
def fromJson (s : String) : Decoded Registry :=
  (Document.ofText s).map ofDocument

/-- Takes over the records of the document that bytes hold. -/
def readFrom (r : Registry) (bytes : ByteArray) : Decoded Registry :=
  (Document.ofBytes bytes).map r.apply

end Registry

end Wiretap
