import Wiretap.Cli.Run
/-!
# The command line on a real disk

The policy file is read into a disk of its own, the command runs on that disk, and what it made of
the file is written back by way of a neighbour.
-/

namespace Wiretap.Cli

/-- The bytes of a file, if there is one. -/
def load (path : String) : IO (Option ByteArray) := do
  try
    return some (← IO.FS.readBinFile path)
  catch
    | .noFileOrDirectory _ _ _ => return none
    | e => throw e

/-- A disk that holds one file. -/
def diskWith (path : Path) (bytes : Option ByteArray) : Disk :=
  match bytes with
  | none => {}
  | some bytes => ((({} : Disk).makeDirectories path.parent).2.writeFile path bytes).2

/-- The text of a path without its last name, and with the neighbour's name instead. -/
def beside (path neighbour : String) : Option String × String :=
  match Text.splitLast? '/' path.toList with
  | some (front, _) =>
    let parent := String.ofList front
    (some parent, s!"{parent}/{neighbour}")
  | none => (none, neighbour)

/-- Replaces the bytes of a file. -/
def store (path : String) (bytes : ByteArray) : IO Unit := do
  let name := ((Path.ofText path).name?).getD path
  let (parent, neighbour) := beside path s!"{Path.stem name}.tmp"
  if let some parent := parent then
    if !parent.isEmpty then IO.FS.createDirAll parent
  IO.FS.writeBinFile neighbour bytes
  IO.FS.rename neighbour path

/-- Runs a request on the real file. -/
def Request.perform (r : Request) : IO Outcome := do
  let path := Path.ofText r.path
  let disk := diskWith path (← load r.path)
  let (outcome, after) := r.run disk
  match (after.read path).toOption with
  | some bytes =>
    if !(disk.read path).toOption.any (·.data == bytes.data) then
      try store r.path bytes
      catch e => if !r.command.asks then throw e
  | none => pure ()
  return outcome

end Wiretap.Cli

open Wiretap.Cli in
/-- Runs the command line; a disk that fails makes the exit code 1. -/
def main (arguments : List String) : IO UInt32 := do
  let fallback ← IO.getEnv "IO_SNIFFY_REGISTRY_PATH"
  let outcome ←
    match Request.read fallback arguments with
    | .error notice => pure notice.outcome
    | .ok request =>
      try request.perform
      catch e => pure { exit := 1, aside := s!"policy file I/O error: {e}\n" }
  IO.print outcome.output
  IO.eprint outcome.aside
  return outcome.exit
