import GraphQuery.CommandLine.Moment
import GraphQuery.CommandLine.Run
import Std.Time.DateTime.Timestamp

/-! # The program

Reads the command line, gathers what the command may see, runs it, and writes what comes of it. A
file is only written if the command changed it. There is no database driver in this program, so that
no server can be reached.
-/

namespace GraphQuery.CommandLine

/-- The locations that a command may read or write. -/
def Command.locations : Command → List Location
  | .compile source _ => if source = "-" then [] else [.ofText source]
  | .record _ plans database => [plans, database]
  | .compare _ _ _ database => [database]
  | .invariants config _ => config.toList

/-- The environment variables that name settings. -/
def settingVariables : List String :=
  let root := Layers.opening ++ "NEO4J"
  root :: ["URL", "USER", "PASSWORD", "DATABASE", "DEFAULT_TIMEOUT_MS", "CONNECTION_POOL_SIZE",
    "MAX_CONNECTION_LIFETIME_MS"].map fun name => root ++ Layers.separator ++ name

def unreachableServer : Server :=
  let fault : Fault := .plain .value "no database driver is available"
  ⟨fun _ => .error fault, fun _ => .error fault, fun _ _ => .error fault⟩

/-- What stands at a place: a file, a folder, or nothing. -/
def lookAt (place : List String) : IO (Option Entry) := do
  try
    let bytes ← IO.FS.readBinFile ("/" ++ "/".intercalate place)
    return some (.file bytes.toList)
  catch
    | .noFileOrDirectory .. => return none
    | _ => return some .folder

/-- Gathers what stands on the way to a location and at it. -/
def gather (files : Files) (location : Location) : IO Files := do
  let place := Files.placeOf (files.start location) location.names
  let mut found := files
  for length in List.range (place.length + 1) do
    if let some entry ← lookAt (place.take length) then
      found := found.put (place.take length) entry
  return found

/-- Writes the file at a location if a command changed it. -/
def keep (before after : Files) (location : Location) : IO Unit := do
  let place := Files.placeOf (after.start location) location.names
  match (after.read location).toOption with
  | none => return
  | some bytes =>
    if (before.read location).toOption ≠ some bytes then
      IO.FS.createDirAll ("/" ++ "/".intercalate place.dropLast)
      IO.FS.writeBinFile ("/" ++ "/".intercalate place) ⟨bytes.toArray⟩

partial def readAll (stream : IO.FS.Stream) (s : String) : IO String := do
  let line ← stream.getLine
  if line.isEmpty then return s else readAll stream (s ++ line)

def readInput : IO (Except Fault String) := do
  try
    let s ← readAll (← IO.getStdin) ""
    return .ok (String.ofList (Text.withPlainNewlines s.toList))
  catch _ => return .error (.plain .unicode "the input is not valid UTF-8")

/-- The environment variables that are set. -/
def readVariables : IO (List (String × String)) :=
  settingVariables.filterMapM fun name => do
    return (← IO.getEnv name).map fun s => (name, s)

/-- The present time as it is written into records. -/
def presentTime : IO String := do
  let now ← Std.Time.Timestamp.now
  return (Moment.mk (now.toNanosecondsSinceUnixEpoch.val / 1000).toNat).text

/-- How deeply documents may be nested. -/
def nestingLimit : Nat := 900

/-- Gathers what a command may see. -/
def surroundingsOf (command : Command) : IO Surroundings := do
  let here := Location.ofText (← IO.currentDir).toString
  let files ← command.locations.foldlM gather ⟨here.names, []⟩
  let input ← match command with
    | .compile "-" _ => readInput
    | _ => pure (.ok "")
  return ⟨files, input, ← readVariables, ← presentTime, unreachableServer, nestingLimit⟩

/-- Runs a request and writes what comes of it. The output is UTF-8, which expresses every line. -/
def Request.perform (request : Request) : IO UInt32 := do
  let surroundings ← surroundingsOf request.command
  let outcome := (request.command.run surroundings).written fun _ => none
  request.command.locations.forM (keep surroundings.files outcome.files)
  IO.print outcome.outputText
  IO.eprint (outcome.messageText request.verbose)
  match outcome.status with
  | .ok status => return .ofNat status
  | .error fault =>
    IO.eprintln fault.display
    return 1

end GraphQuery.CommandLine

open GraphQuery.CommandLine in
/-- Runs the program with the words of its command line. -/
def main (words : List String) : IO UInt32 := do
  match Request.read words with
  | .ok request => request.perform
  | .error ending =>
    if ending.message.isEmpty then
      IO.println s!"usage: {Request.program} [-h] [--verbose] command ..."
    else IO.eprintln ending.message
    return .ofNat ending.status
