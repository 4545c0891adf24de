import GraphQuery.CommandLine.Reader
import GraphQuery.Plan.Store

/-! # The commands of the program

The program compiles query documents, records and compares query plans, and checks the example
invariants of a database. The grammar says how each of these is written on a line.
-/

namespace GraphQuery.CommandLine

/-- What the program is asked to do. -/
inductive Command where
  /-- Writes the text of the query in a document. -/
  | compile (source : String) (normalized : Bool)
  /-- Records plans for a version. -/
  | record (version : String) (plans database : Location)
  /-- Compares the plans of two versions. -/
  | compare (current previous : String) (threshold : Number) (database : Location)
  /-- Checks the example invariants. -/
  | invariants (config : Option Location) (overrides : List (String × String))

/-- A command, and whether everything that is logged is shown. -/
structure Request where
  verbose : Bool
  command : Command

namespace Request

def program : String := "cyphergraph"

def textOption (name : String) : OptionSpec :=
  .optional [name] .text

/-- The settings that can be given on the line. -/
def settingNames : List String := ["url", "user", "password", "database"]

def grammar : Grammar :=
  .group [.help, .optional ["--verbose", "-v"] .flag] "command" [
    ("compile", .command [.help, .optional ["--no-normalize"] .flag] ["source"]),
    ("plan-drift", .group [.help] "drift_command" [
      ("record", .command [.help, ⟨["--plans"], .text, true⟩, textOption "--db"] ["version"]),
      ("diff", .command [.help, .optional ["--threshold"] .number, textOption "--db"]
        ["current", "previous"])]),
    ("invariants", .command
      ([.help, textOption "--config"] ++ settingNames.map fun name => textOption s!"--{name}") [])]

def databaseOf (reading : Reading) : Location :=
  ((reading.text? "--db").map Location.ofText).getD Plan.standardLocation

def overridesOf (reading : Reading) : List (String × String) :=
  settingNames.filterMap fun name => (reading.text? s!"--{name}").map fun s => (name, s)

def commandOf (reading : Reading) : Command :=
  let operand (name : String) : String := (reading.text? name).getD ""
  match reading.commands with
  | ["compile"] => .compile (operand "source") (!reading.has "--no-normalize")
  | ["plan-drift", "record"] =>
    .record (operand "version") (.ofText (operand "--plans")) (databaseOf reading)
  | ["plan-drift", "diff"] =>
    let threshold := (reading.number? "--threshold").elim DriftReport.standardThreshold .float
    .compare (operand "current") (operand "previous") threshold (databaseOf reading)
  | _ => .invariants ((reading.text? "--config").map Location.ofText) (overridesOf reading)

/-- Reads the words after the name of the program. -/
def read (words : List String) : Except Ending Request :=
  (CommandLine.read program grammar words).map fun reading =>
    ⟨reading.has "--verbose", commandOf reading⟩

end Request

end GraphQuery.CommandLine
