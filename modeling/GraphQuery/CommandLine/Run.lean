import GraphQuery.CommandLine.Options
import GraphQuery.Config.Layers
import GraphQuery.Connection.Basic
import GraphQuery.Invariant.Check
import GraphQuery.Plan.Document

/-! # Running commands

A command sees files, an input, environment variables, a time and a database server. What comes of
it is an outcome: a status or a fault that nobody expects, what is printed and logged, and the files
afterwards. Faults of values, of missing files and of the domain are expected: they are reported,
and the status is 2.

Printing is the last thing that a command does. By then its files are changed, so an output that
cannot express a line turns a success into a fault without taking anything back.
-/

namespace GraphQuery.CommandLine

/-- A database server. -/
structure Server where
  connect : DriverOptions → Except Fault Unit
  openSession : List (String × Value) → Except Fault Unit
  respond : Nat → Statement → Except Fault (List Value)

/-- What a command sees. -/
structure Surroundings where
  files : Files
  input : Except Fault String
  environment : List (String × String)
  /-- The time, as it is written into records. -/
  now : String
  server : Server
  /-- How deeply documents may be nested. -/
  depth : Nat

/-- What comes of a command. Its lines are still to be written. -/
structure Outcome where
  status : Except Fault Nat
  /-- The lines that are printed. -/
  output : List String
  /-- The lines that are reported apart from what is printed. -/
  messages : List String
  log : List LogLine
  /-- What drivers were created with, or should have been. -/
  drivers : List DriverOptions
  files : Files

namespace Outcome

def printed (status : Nat) (line : String) (files : Files) : Outcome :=
  ⟨.ok status, [line], [], [], [], files⟩

/-- A fault that left everything as it was. -/
def failed (fault : Fault) (files : Files) : Outcome :=
  ⟨.error fault, [], [], [], [], files⟩

def isExpected (fault : Fault) : Bool :=
  fault.isA .value || fault.isA .fileNotFound || fault.isDomain

def reported (outcome : Outcome) : Outcome :=
  match outcome.status with
  | .ok _ => outcome
  | .error fault =>
    if isExpected fault then
      { outcome with status := .ok 2, messages := outcome.messages ++ [fault.message] }
    else outcome

/-- Writes what is printed to an output. An output may object to a line that it cannot express; then
nothing is written, and the objection is reported as a fault. -/
def written (objection? : String → Option String) (outcome : Outcome) : Outcome :=
  match outcome.output.findSome? objection? with
  | none => outcome
  | some message =>
    { outcome with output := [], status := .error (.plain .encoding message) }.reported

def shows (verbose : Bool) (line : LogLine) : Bool :=
  verbose || line.level = .warning || line.level = .error

/-- A log line with its level and its channel. -/
def lineText (line : LogLine) : String :=
  s!"{line.level.name}:{line.channel}:{line.message}"

def ended (lines : List String) : String :=
  String.join (lines.map fun line => line ++ "\n")

def outputText (outcome : Outcome) : String :=
  ended outcome.output

/-- What is reported: the log lines that are shown, and the messages. -/
def messageText (verbose : Bool) (outcome : Outcome) : String :=
  ended ((outcome.log.filter (shows verbose)).map lineText ++ outcome.messages)

end Outcome

/-! ## Commands -/

/-- Reads the document at a location; a hyphen stands for the input. -/
def documentAt (source : String) (surroundings : Surroundings) : Except Fault Value := do
  let s ← if source = "-" then surroundings.input
    else surroundings.files.readText (.ofText source)
  readDocument surroundings.depth s

def compile (source : String) (normalized : Bool) (surroundings : Surroundings) : Outcome :=
  let files := surroundings.files
  let report : Except Fault Json := do
    let data ← documentAt source surroundings
    let query ← Query.ofData data
    query.report normalized
  match report with
  | .ok document => .printed 0 (Json.writeIndented document) files
  | .error fault => .failed fault files

def record (version : String) (plans database : Location) (surroundings : Surroundings) : Outcome :=
  let files := surroundings.files
  let recorded : Except Fault (List PlanRecord × Files) := do
    let source ← files.readText plans
    let document ← readDocument surroundings.depth source
    let entries ← Plan.entriesOf document
    Plan.record version surroundings.now entries database files
  match recorded with
  | .ok (records, after) =>
    { Outcome.printed 0 (Plan.recordedMessage records.length version) after with
      log := [Plan.recordedLine records.length version] }
  | .error fault => .failed fault files

/-- Compares the plans of two versions. The status says whether they drifted apart. -/
def compare (current previous : String) (threshold : Number) (database : Location)
    (surroundings : Surroundings) : Outcome :=
  let files := surroundings.files
  let compared : Except Fault (DriftReport × String) := do
    let report ← Plan.detect current previous threshold database files
    let shown ← report.text DriftReport.standardItems
    .ok (report, shown)
  match compared with
  | .ok (report, shown) => .printed (if report.isDrift then 1 else 0) shown files
  | .error fault => .failed fault files

def settingsLayer (config : Option Location) (files : Files) :
    Except Fault (List (Value × Value)) :=
  match config with
  | none => .ok []
  | some location =>
    if files.contains location then (files.readExact location).bind Layers.ofFile
    else .error (Layers.fileMissing location.text)

def settingsFor (config : Option Location) (overrides : List (String × String))
    (surroundings : Surroundings) : Except Fault Settings :=
  Layers.load (settingsLayer config surroundings.files) surroundings.environment
    (overrides.map fun (name, s) => (.text name, .text s))

/-- What is reported about a broken invariant. -/
def brokenMessage (verdict : Verdict) : String :=
  s!"FAILED {verdict.name}: {verdict.message}"

/-- What comes of the verdicts on broken invariants. -/
def judged (broken : List Verdict) (files : Files) : Outcome :=
  if broken.isEmpty then .printed 0 "All invariant checks passed" files
  else ⟨.ok 1, [], broken.map brokenMessage, [], [], files⟩

/-- Checks the example invariants in a session on a database. -/
def checkWithin (database : Option String) (surroundings : Surroundings) : Outcome :=
  let files := surroundings.files
  let options := Connection.sessionOptions .read (Fault.optionalText database)
  match Connection.opened .read (surroundings.server.openSession options) with
  | .error fault => .failed fault files
  | .ok _ =>
    let (verdicts, session) :=
      Invariant.enforce Invariant.examples (Session.start surroundings.server.respond)
    let outcome := match verdicts with
      | .ok broken => judged broken files
      | .error fault => .failed fault files
    { outcome with log := session.log }

/-- Checks the example invariants of the database that settings name. -/
def invariants (config : Option Location) (overrides : List (String × String))
    (surroundings : Surroundings) : Outcome :=
  let files := surroundings.files
  let prepared : Except Fault (Settings × DriverOptions) := do
    let settings ← settingsFor config overrides surroundings
    let options ← settings.driverOptions
    .ok (settings, options)
  match prepared with
  | .error fault => .failed fault files
  | .ok (settings, options) =>
    match Connection.created settings (surroundings.server.connect options) with
    | .error fault => { Outcome.failed fault files with drivers := [options] }
    | .ok line =>
      let outcome := checkWithin settings.database surroundings
      { outcome with log := line :: outcome.log, drivers := [options] }

def Command.run (command : Command) (surroundings : Surroundings) : Outcome :=
  let outcome := match command with
    | .compile source normalized => CommandLine.compile source normalized surroundings
    | .record version plans database => CommandLine.record version plans database surroundings
    | .compare current previous threshold database =>
      CommandLine.compare current previous threshold database surroundings
    | .invariants config overrides => CommandLine.invariants config overrides surroundings
  outcome.reported

/-- Reporting a fault changes no file. -/
@[simp] theorem Outcome.files_reported (outcome : Outcome) :
    outcome.reported.files = outcome.files := by
  unfold Outcome.reported
  split
  · rfl
  · split <;> rfl

end GraphQuery.CommandLine
