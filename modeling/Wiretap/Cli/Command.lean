import Wiretap.Cli.Arguments
import Wiretap.Address
import Wiretap.Policy.Status
/-!
# The commands that edit a policy file

A command line names the policy file, by the option `registry` or else by the environment, and
then one command with options and words of its own.  How much is logged may be said on either side
of the command's name.  No option but `verbose` may come twice on one side.

Each side is read from left to right, and the first piece that is answered at once decides: a
question for the version or for help, or a piece that cannot stand where it stands.  Only then
comes what is missing.
-/

namespace Wiretap.Cli

/-- What is to be done with a policy file. -/
inductive Command where
  /-- List every entry, or print the document. -/
  | list (json : Bool)
  | setSocket (host : Option String) (port : Option UInt16) (status : Status)
  | setDataSource (url user : Option String) (status : Status)
  /-- Print the status of an address. -/
  | resolveSocket (address : Address)
  /-- Print the status of a data source. -/
  | resolveDataSource (url : String) (user : Option String)
  | setPersistent (on : Bool)
  /-- Remove every entry. -/
  | clear
  deriving DecidableEq, Repr

/-- A command and the policy file it is about. -/
structure Request where
  path : String
  command : Command
  deriving DecidableEq, Repr

/-- What is answered in place of running a command. -/
inductive Notice where
  | version
  | help
  | misuse (error : UsageError)
  deriving DecidableEq, Repr

/-- A word that must be given. -/
structure Slot where
  name : String
  /-- Which texts the word may be. -/
  accepts : String → Bool

/-- What one side of the command's name may say. -/
structure Form where
  options : List Shape
  words : List Slot := []

/-- Whether a reader makes anything of a text. -/
def reads (read : String → Option α) (s : String) : Bool := (read s).isSome

/-- Reads a port. -/
def port? (s : String) : Option UInt16 :=
  (Text.int64? s.toList).bind fun n =>
    if 0 ≤ n ∧ n < UInt16.size then some (UInt16.ofNat n.toNat) else none

/-- Reads a switch. -/
def switch? : String → Option Bool
  | "true" => some true
  | "false" => some false
  | _ => none

/-- Reads a status. -/
def status? (s : String) : Option Status := (Status.parse s).toOption

/-- An option that takes a value which the reader makes something of. -/
def valued (name : String) (read : String → Option α) : Shape :=
  { name, value := some (reads read) }

/-- A path that is not empty. -/
def path? (s : String) : Option String := if s.isEmpty then none else some s

/-- The options that stand on either side of the command's name. -/
def anywhere : List Shape :=
  [{ name := "verbose", letter := some 'v' }, { name := "quiet", letter := some 'q' },
    { name := "help", letter := some 'h' }]

/-- What stands before the command's name. -/
def leading : Form where
  options := valued "registry" path? :: { name := "version", letter := some 'V' } :: anywhere

/-- What stands behind the name of each command. -/
def formOf? : String → Option Form
  | "show" => some { options := { name := "json" } :: anywhere }
  | "set-socket" =>
    some {
      options := valued "host" some :: valued "port" port? :: anywhere
      words := [⟨"status", reads status?⟩] }
  | "set-data-source" =>
    some {
      options := valued "url" some :: valued "user" some :: anywhere
      words := [⟨"status", reads status?⟩] }
  | "resolve-socket" => some { options := anywhere, words := [⟨"address", reads Address.parse?⟩] }
  | "resolve-data-source" =>
    some { options := valued "user" some :: anywhere, words := [⟨"url", reads some⟩] }
  | "persistent" => some { options := anywhere, words := [⟨"enabled", reads switch?⟩] }
  | "clear" => some { options := anywhere }
  | _ => none

/-- What one side of the command's name says. -/
structure Given where
  flags : List String := []
  values : List (String × String) := []
  words : List String := []
  deriving DecidableEq, Repr, Inhabited

namespace Given

/-- What is said with one more piece. -/
def add (f : Form) (g : Given) : Piece → Except Notice Given
  | .option "version" _ => .error .version
  | .option "help" _ => .error .help
  | .option "verbose" _ => .ok g
  | .option name none =>
    if name ∈ g.flags then .error (.misuse (.repeated name))
    else .ok { g with flags := g.flags ++ [name] }
  | .option name (some value) =>
    if (g.values.lookup name).isSome then .error (.misuse (.repeated name))
    else if f.options.any fun s => s.name == name && s.accepts value then
      .ok { g with values := g.values ++ [(name, value)] }
    else .error (.misuse (.invalidValue name value))
  | .word text =>
    match f.words[g.words.length]? with
    | none => .error (.misuse (.unexpectedWord text))
    | some slot =>
      if slot.accepts text then .ok { g with words := g.words ++ [text] }
      else .error (.misuse (.invalidValue slot.name text))

/-- What one side says, and the arguments that were not cut. -/
def read (f : Form) (stopping : Bool) (arguments : List String) :
    Except Notice (Given × List String) := do
  let c := cut f.options stopping arguments
  let g ← c.pieces.foldlM (add f) {}
  match c.ending with
  | .ok rest => return (g, rest)
  | .error e => throw (.misuse e)

/-- The value of an option. -/
def value? (g : Given) (name : String) : Option String := g.values.lookup name

/-- The one word that must be given, as it is read. -/
def oneWord (g : Given) (name : String) (read : String → Option α) : Except UsageError α :=
  match g.words.head?.bind read with
  | some value => .ok value
  | none => .error (.missing name)

end Given

namespace Command

/-- Whether the command only asks.  Nobody is told where what such a command notes cannot be kept. -/
def asks : Command → Bool
  | list _ | resolveSocket _ | resolveDataSource _ _ => true
  | setSocket _ _ _ | setDataSource _ _ _ | setPersistent _ | clear => false

/-- The command of that name with what is given behind the name. -/
def ofGiven (name : String) (g : Given) : Except UsageError Command :=
  match name with
  | "show" => .ok (.list ("json" ∈ g.flags))
  | "set-socket" =>
    (g.oneWord "status" status?).map (.setSocket (g.value? "host") ((g.value? "port").bind port?))
  | "set-data-source" =>
    (g.oneWord "status" status?).map (.setDataSource (g.value? "url") (g.value? "user"))
  | "resolve-socket" => (g.oneWord "address" Address.parse?).map .resolveSocket
  | "resolve-data-source" =>
    (g.oneWord "url" some).map (.resolveDataSource · (g.value? "user"))
  | "persistent" => (g.oneWord "enabled" switch?).map .setPersistent
  | "clear" => .ok .clear
  | name => .error (.unexpectedWord name)

/-- Whether there is help about a name. -/
def isExplained (name : String) : Bool := name == "help" || (formOf? name).isSome

/-- The answer to a question for help about the named command, or about all of them. -/
def help : List String → Notice
  | [] => .help
  | [name] => if isExplained name then .help else .misuse (.unexpectedWord name)
  | name :: more :: _ => .misuse (.unexpectedWord (if isExplained name then more else name))

/-- Reads a command: its name and the arguments behind it. -/
def read : List String → Except Notice Command
  | [] => .error (.misuse (.missing "command"))
  | "help" :: names => .error (help names)
  | name :: rest => do
    match formOf? name with
    | none => throw (.misuse (.unexpectedWord name))
    | some form =>
      let (g, _) ← Given.read form false rest
      (ofGiven name g).mapError .misuse

end Command

/-- Reads a command line; `fallback` names the policy file where the line does not. -/
def Request.read (fallback : Option String) (arguments : List String) : Except Notice Request := do
  let (g, rest) ← Given.read leading true arguments
  let command ← Command.read rest
  match g.value? "registry" <|> fallback with
  | none => throw (.misuse (.missing "registry"))
  | some "" => throw (.misuse (.invalidValue "registry" ""))
  | some path => return { path, command }

end Wiretap.Cli
