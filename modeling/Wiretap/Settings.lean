import Wiretap.Text.Blank
import Wiretap.Text.AsciiCase
import Wiretap.Text.Decimal
import Wiretap.Counter
/-!
# Settings: what is watched and kept

Settings come from variables, each of which may be missing.  The variables are read in a fixed
order and the first one whose value makes no sense is the error.  Values may have blanks around
them, switches are written in four ways each in any letter case, and a blank path is no path.
-/

namespace Wiretap

/-- What is watched, what is kept, and where the policy is. -/
structure Settings where
  /-- Account connections and bytes. -/
  monitorSockets : Bool := true
  /-- Account statements and data sources. -/
  monitorSql : Bool := true
  /-- Attach the call site to identities and packets. -/
  captureTraces : Bool := true
  /-- Keep what was sent and received, and not just how much. -/
  captureTraffic : Bool := true
  /-- The longest pause inside a packet. -/
  mergeThreshold : Duration := .ofMillis 500
  /-- How many statement texts are timed. -/
  capacity : UInt64 := 1024
  /-- The policy file. -/
  registryPath : Option String := none
  deriving DecidableEq, Repr, Inhabited

/-- A variable whose value makes no sense. -/
structure SettingsError where
  name : String
  value : String
  deriving DecidableEq, Repr

/-- The words of the error. -/
def SettingsError.message (e : SettingsError) : String :=
  s!"invalid value '{e.value}' for {e.name}"

namespace Settings

/-- Reads a switch. -/
def switch? (s : String) : Option Bool :=
  let word := Text.lowerAscii (Text.trim s)
  if word ∈ ["true", "1", "yes", "on"] then some true
  else if word ∈ ["false", "0", "no", "off"] then some false
  else none

/-- Reads a number. -/
def number? (s : String) : Option UInt64 := Text.uint64? (Text.trimChars s.toList)

/-- Reads a path; a blank one is none. -/
def path? (s : String) : Option String :=
  let path := Text.trim s
  if path.isEmpty then none else some path

/-- The value of a variable, or a default where it is missing. -/
def value (lookup : String → Option String) (name : String) (read : String → Option α)
    (default : α) : Except SettingsError α :=
  match lookup name with
  | none => .ok default
  | some s =>
    match read s with
    | some value => .ok value
    | none => .error ⟨name, s⟩

/-- The settings that variables give. -/
def ofVariables (lookup : String → Option String) : Except SettingsError Settings := do
  return {
    monitorSockets := ← value lookup "IO_SNIFFY_MONITOR_SOCKET" switch? true
    monitorSql := ← value lookup "IO_SNIFFY_MONITOR_JDBC" switch? true
    captureTraces := ← value lookup "IO_SNIFFY_CAPTURE_STACK_TRACES" switch? true
    captureTraffic := ← value lookup "IO_SNIFFY_CAPTURE_TRAFFIC" switch? true
    mergeThreshold := .ofMillis (← value lookup "IO_SNIFFY_PACKET_MERGE_THRESHOLD" number? 500)
    capacity := ← value lookup "IO_SNIFFY_TOP_SQL_CAPACITY" number? 1024
    registryPath := (lookup "IO_SNIFFY_REGISTRY_PATH").bind path? }

end Settings

end Wiretap
