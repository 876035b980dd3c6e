import Wiretap.Policy.Status
import Wiretap.Json.Layout
/-!
# Policy documents

A policy is exchanged as a JSON document: whether it is to be kept on disk, the records of
sockets, and the records of data sources.

* Writing leaves out what a record does not name, writes a port as a text, a status as its text,
  and the mark of a discovered record only where it is set.
* Reading also takes a port as a number, a port that is null, blank or a star for one that is left
  open, and a status as a code.  Records and documents may be objects or arrays of their fields in
  order.  Unknown fields are passed over; a known one that comes twice is a fault; only the status
  of a record must be there.
* The fault reported is the first in the order of the text, which the walk over the tree keeps;
  whatever stands behind the document is a fault after all others.
-/

namespace Wiretap

/-- A rule about sockets, as it is written down. -/
structure SocketRecord where
  host : Option String := none
  port : Option UInt16 := none
  status : Status
  discovered : Bool := false
  deriving DecidableEq, Repr, Inhabited

/-- A rule about data sources, as it is written down. -/
structure DataSourceRecord where
  url : Option String := none
  user : Option String := none
  status : Status
  discovered : Bool := false
  deriving DecidableEq, Repr, Inhabited

/-- A policy as it is written down. -/
structure Document where
  persistent : Bool := false
  sockets : List SocketRecord := []
  dataSources : List DataSourceRecord := []
  deriving DecidableEq, Repr, Inhabited

/-- Why a text is no policy document. -/
inductive DocumentError where
  /-- The text is no JSON, or a value of it is of the wrong kind. -/
  | malformed
  | missingField (name : String)
  | duplicateField (name : String)
  | invalidPort (text : String)
  | status (error : StatusError)
  deriving DecidableEq, Repr

/-- The words of the error. -/
def DocumentError.message : DocumentError → String
  | .malformed => "not a policy document"
  | .missingField name => s!"missing field \x60{name}\x60"
  | .duplicateField name => s!"duplicate field \x60{name}\x60"
  | .invalidPort text => s!"invalid port '{text}'"
  | .status error => error.message

/-- What reading gives: a value, or the first fault. -/
abbrev Decoded (α : Type) := Except DocumentError α

namespace Decode

/-- A truth value. -/
def bool : Json → Decoded Bool
  | .bool b => .ok b
  | _ => .error .malformed

/-- A text, or null for none. -/
def optionalText : Json → Decoded (Option String)
  | .null => .ok none
  | .text (some s) => .ok (some s)
  | _ => .error .malformed

/-- A port as a text: blank and star leave it open. -/
def portText (s : String) : Decoded (Option UInt16) :=
  let cs := Text.trimChars s.toList
  if cs = [] ∨ cs = ['*'] then .ok none
  else
    match Text.uint16? cs with
    | some port => .ok (some port)
    | none => .error (.invalidPort s)

/-- A port as a number. -/
def portNumber (literal : String) : Decoded (Option UInt16) :=
  match Json.wholeNumber? literal with
  | some n =>
    if 0 ≤ n ∧ n < UInt16.size then .ok (some (UInt16.ofNat n.toNat)) else .error .malformed
  | none => .error .malformed

/-- A port in any of its forms. -/
def port : Json → Decoded (Option UInt16)
  | .null => .ok none
  | .number literal => portNumber literal
  | .text (some s) => portText s
  | _ => .error .malformed

/-- A status as its text or its code. -/
def status : Json → Decoded Status
  | .text (some s) => (Status.parse s).mapError .status
  | .number literal =>
    match Json.wholeNumber? literal with
    | some n => if n ≤ Int64.maxValue.toInt then .ok (Status.ofCode n) else .error .malformed
    | none => .error .malformed
  | _ => .error .malformed

/-- The value of a field that must come once: the field may not have a value yet. -/
def once (name : String) (before : Option α) (value : Decoded α) : Decoded (Option α) :=
  match before with
  | some _ => .error (.duplicateField name)
  | none => value.map some

/-- The next item of an array, and the items behind it; `absent` stands for one that is left
out. -/
def next (read : Json → Decoded α) (absent : Decoded α) : List Json → Decoded (α × List Json)
  | [] => absent.map (·, [])
  | item :: rest => (read item).map (·, rest)

/-- Nothing may stand behind the last item. -/
def noMore (value : α) : List Json → Decoded α
  | [] => .ok value
  | _ :: _ => .error .malformed

/-- Items, each read in the same way. -/
def list (read : Json → Decoded α) : Json → Decoded (List α)
  | .array items => items.mapM read
  | _ => .error .malformed

/-- The fields of a socket record as far as they were read. -/
structure SocketDraft where
  host : Option (Option String) := none
  port : Option (Option UInt16) := none
  status : Option Status := none
  discovered : Option Bool := none
  deriving DecidableEq, Repr, Inhabited

namespace SocketDraft

/-- Reads one more field; an unknown one is passed over. -/
def field (d : SocketDraft) (name : Option String) (value : Json) : Decoded SocketDraft :=
  match name with
  | some "host" => return { d with host := ← once "host" d.host (optionalText value) }
  | some "port" => return { d with port := ← once "port" d.port (Decode.port value) }
  | some "status" => return { d with status := ← once "status" d.status (Decode.status value) }
  | some "discovered" =>
    return { d with discovered := ← once "discovered" d.discovered (bool value) }
  | some _ => .ok d
  | none => .error .malformed

/-- The record, if it has a status. -/
def finish (d : SocketDraft) : Decoded SocketRecord :=
  match d.status with
  | some status =>
    .ok {
      host := d.host.getD none
      port := d.port.getD none
      status := status
      discovered := d.discovered.getD false }
  | none => .error (.missingField "status")

end SocketDraft

/-- A socket record. -/
def socketRecord : Json → Decoded SocketRecord
  | .object fields => do
    let draft ← fields.foldlM (fun d (name, value) => d.field name value) ({} : SocketDraft)
    draft.finish
  | .array items => do
    let (host, items) ← next optionalText (.ok none) items
    let (port, items) ← next Decode.port (.ok none) items
    let (status, items) ← next Decode.status (.error .malformed) items
    let (discovered, items) ← next bool (.ok false) items
    noMore ⟨host, port, status, discovered⟩ items
  | _ => .error .malformed

/-- The fields of a data source record as far as they were read. -/
structure DataSourceDraft where
  url : Option (Option String) := none
  user : Option (Option String) := none
  status : Option Status := none
  discovered : Option Bool := none
  deriving DecidableEq, Repr, Inhabited

namespace DataSourceDraft

/-- Reads one more field; an unknown one is passed over. -/
def field (d : DataSourceDraft) (name : Option String) (value : Json) : Decoded DataSourceDraft :=
  match name with
  | some "url" => return { d with url := ← once "url" d.url (optionalText value) }
  | some "userName" => return { d with user := ← once "userName" d.user (optionalText value) }
  | some "status" => return { d with status := ← once "status" d.status (Decode.status value) }
  | some "discovered" =>
    return { d with discovered := ← once "discovered" d.discovered (bool value) }
  | some _ => .ok d
  | none => .error .malformed

/-- The record, if it has a status. -/
def finish (d : DataSourceDraft) : Decoded DataSourceRecord :=
  match d.status with
  | some status =>
    .ok {
      url := d.url.getD none
      user := d.user.getD none
      status := status
      discovered := d.discovered.getD false }
  | none => .error (.missingField "status")

end DataSourceDraft

/-- A data source record. -/
def dataSourceRecord : Json → Decoded DataSourceRecord
  | .object fields => do
    let draft ← fields.foldlM (fun d (name, value) => d.field name value) ({} : DataSourceDraft)
    draft.finish
  | .array items => do
    let (url, items) ← next optionalText (.ok none) items
    let (user, items) ← next optionalText (.ok none) items
    let (status, items) ← next Decode.status (.error .malformed) items
    let (discovered, items) ← next bool (.ok false) items
    noMore ⟨url, user, status, discovered⟩ items
  | _ => .error .malformed

/-- The fields of a document as far as they were read. -/
structure DocumentDraft where
  persistent : Option Bool := none
  sockets : Option (List SocketRecord) := none
  dataSources : Option (List DataSourceRecord) := none
  deriving DecidableEq, Repr, Inhabited

namespace DocumentDraft

/-- Reads one more field; an unknown one is passed over. -/
def field (d : DocumentDraft) (name : Option String) (value : Json) : Decoded DocumentDraft :=
  match name with
  | some "persistent" =>
    return { d with persistent := ← once "persistent" d.persistent (bool value) }
  | some "sockets" =>
    return { d with sockets := ← once "sockets" d.sockets (list socketRecord value) }
  | some "dataSources" =>
    return { d with
      dataSources := ← once "dataSources" d.dataSources (list dataSourceRecord value) }
  | some _ => .ok d
  | none => .error .malformed

/-- The document; every field of it may be left out. -/
def finish (d : DocumentDraft) : Document where
  persistent := d.persistent.getD false
  sockets := d.sockets.getD []
  dataSources := d.dataSources.getD []

end DocumentDraft

/-- A document. -/
def document : Json → Decoded Document
  | .object fields => do
    let draft ← fields.foldlM (fun d (name, value) => d.field name value) ({} : DocumentDraft)
    return draft.finish
  | .array items => do
    let (persistent, items) ← next bool (.ok false) items
    let (sockets, items) ← next (list socketRecord) (.ok []) items
    let (dataSources, items) ← next (list dataSourceRecord) (.ok []) items
    noMore ⟨persistent, sockets, dataSources⟩ items
  | _ => .error .malformed

/-- A source that holds one value in JSON and nothing else. -/
def source (read : Json → Decoded α) (source : Json.Source) : Decoded α := do
  let reading := Json.read source
  let value ← read reading.tree
  if reading.alone then return value else throw .malformed

end Decode

namespace Document

/-- Reads a document. -/
def parse (source : Json.Source) : Decoded Document := Decode.source Decode.document source

/-- Reads a document from text. -/
def ofText (s : String) : Decoded Document := parse (Json.Source.ofText s)

/-- Reads a document from bytes. -/
def ofBytes (bytes : ByteArray) : Decoded Document := parse (Json.Source.ofBytes bytes)

end Document

namespace Encode

/-- A text. -/
def text (s : String) : Json := .text (some s)

/-- A field of an object, left out where there is no value. -/
def optionalField (name : String) (value : Option Json) : List (Option String × Json) :=
  (value.map fun v => (some name, v)).toList

/-- The mark of a discovered record, left out where it is not set. -/
def discoveredField (discovered : Bool) : List (Option String × Json) :=
  if discovered then [(some "discovered", .bool true)] else []

/-- A socket record. -/
def socketRecord (r : SocketRecord) : Json :=
  .object <|
    optionalField "host" (r.host.map text) ++
    optionalField "port" (r.port.map fun port => text (toString port)) ++
    [(some "status", text r.status.text)] ++
    discoveredField r.discovered

/-- A data source record. -/
def dataSourceRecord (r : DataSourceRecord) : Json :=
  .object <|
    optionalField "url" (r.url.map text) ++
    optionalField "userName" (r.user.map text) ++
    [(some "status", text r.status.text)] ++
    discoveredField r.discovered

end Encode

namespace Document

/-- The document as a tree. -/
def toJson (d : Document) : Json :=
  .object [
    (some "persistent", .bool d.persistent),
    (some "sockets", .array (d.sockets.map Encode.socketRecord)),
    (some "dataSources", .array (d.dataSources.map Encode.dataSourceRecord))]

/-- The document on one line. -/
def compact (d : Document) : String := d.toJson.compact

/-- The document with every record and field on a line of its own. -/
def pretty (d : Document) : String := d.toJson.pretty

end Document

end Wiretap
