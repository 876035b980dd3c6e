import Wiretap.Cli.Command
import Wiretap.Policy.Book
/-!
# Running a command on a policy file

Every command reads the file anew, works on the registry that it describes, and writes the file
back if it changes anything by intention.  Asking for a status notes the key that was asked about,
and so changes the file only where the registry is persistent.

The exit code is 0 for success, 1 where the file cannot be read or written, and 2 where the command
line cannot be understood.
-/

namespace Wiretap.Cli

/-- What a run shows. -/
structure Outcome where
  exit : UInt32
  /-- What is printed. -/
  output : String := ""
  /-- What is printed aside, for the person at the keyboard. -/
  aside : String := ""
  deriving DecidableEq, Repr, Inhabited

/-- The version in words. -/
def versionText : String := "sniffyctl 0.3.1\n"

/-- How the tool is used. -/
def helpText : String :=
  "Usage: sniffyctl --registry PATH [-v] [-q] COMMAND\n\n" ++
  "Commands:\n" ++
  "  show [--json]\n" ++
  "  set-socket [--host HOST] [--port PORT] STATUS\n" ++
  "  set-data-source [--url URL] [--user USER] STATUS\n" ++
  "  resolve-socket ADDRESS\n" ++
  "  resolve-data-source URL [--user USER]\n" ++
  "  persistent true|false\n" ++
  "  clear\n"

/-- The listing of a registry. -/
def listing (r : Registry) : String :=
  String.join (s!"persistent: {r.persistent}\n" :: r.entries.map fun e => e.line ++ "\n")

/-- The book after a change, once it is saved. -/
def saved (b : Book) : Except StorageError String × Book :=
  let (result, b) := b.save
  (result.map fun _ => "", b)

/-- Runs a command on a book that was opened for it; what it prints, or why it failed. -/
def Command.run (c : Command) (b : Book) : Except StorageError String × Book :=
  match c with
  | .list true => (.ok (b.registry.toDocument.pretty ++ "\n"), b)
  | .list false => (.ok (listing b.registry), b)
  | .setSocket host port status => saved (b.setSocket (.of host port) status)
  | .setDataSource url user status => saved (b.setDataSource ⟨url, user⟩ status)
  | .resolveSocket address =>
    let (status, b) := b.resolveSocket address.host address.port
    (.ok (status.text ++ "\n"), b)
  | .resolveDataSource url user =>
    let (status, b) := b.resolveDataSource url user
    (.ok (status.text ++ "\n"), b)
  | .setPersistent on => saved (b.setPersistent on)
  | .clear => saved b.clear

/-- Runs a command on its policy file. -/
def Request.run (r : Request) (disk : Disk) : Outcome × Disk :=
  match ({ disk := disk } : Book).openFile r.path with
  | .error e => ({ exit := 1, aside := e.message ++ "\n" }, disk)
  | .ok book =>
    match r.command.run book with
    | (.ok output, book) => ({ exit := 0, output }, book.disk)
    | (.error e, book) => ({ exit := 1, aside := e.message ++ "\n" }, book.disk)

/-- What is answered in place of running a command. -/
def Notice.outcome : Notice → Outcome
  | .version => { exit := 0, output := versionText }
  | .help => { exit := 0, output := helpText }
  | .misuse e => { exit := 2, aside := s!"error: {e.message}\n\n{helpText}" }

/-- Runs a command line; `fallback` names the policy file where the line does not. -/
def run (fallback : Option String) (arguments : List String) (disk : Disk) : Outcome × Disk :=
  match Request.read fallback arguments with
  | .error notice => (notice.outcome, disk)
  | .ok request => request.run disk

end Wiretap.Cli
