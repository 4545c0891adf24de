import GraphQuery.Config.Settings
import GraphQuery.Text.Lowercase
import GraphQuery.Toml.Reader

/-! # Layers of settings

Settings come from a file, from the environment and from overrides, and each layer is laid over the
ones before it. The name of an environment variable is a path: after the opening that all of them
share, its parts are separated by two underscores and lower-cased.
-/

namespace GraphQuery

namespace Layers

/-- The opening of the environment variables that count. -/
def opening : String := "CYPHERGRAPH_"

/-- What separates the parts of the name of a variable. -/
def separator : String := "__"

/-- The section of a layer that holds connection settings. -/
def section? (layer : List (Value × Value)) : Value :=
  (Value.lookup "neo4j" layer).getD (.map [])

/-- The fault of a path that leads through the text of another variable. -/
def blocked (rest : List String) : Fault :=
  match rest with
  | [_] => .plain .type "'str' object does not support item assignment"
  | _ => .plain .attribute "'str' object has no attribute 'setdefault'"

def assign (s : String) : (path : List String) → List (Value × Value) →
    Except Fault (List (Value × Value))
  | [], entries => .ok entries
  | [name], entries => .ok (Value.putEntry (.text name) (.text s) entries)
  | name :: rest, entries =>
    match Value.lookup name entries with
    | none => (assign s rest []).map fun inner => Value.putEntry (.text name) (.map inner) entries
    | some (.map inner) =>
      (assign s rest inner).map fun changed => Value.putEntry (.text name) (.map changed) entries
    | some _ => .error (blocked rest)

/-- The path that the name of a variable stands for, if the variable counts. -/
def path? (opening separator name : String) : Option (List String) :=
  (Text.after? opening name).map fun rest => (Text.splitBy separator rest).map Text.lowercase

/-- The layer of environment variables, which are taken in order. -/
def ofEnvironment (opening separator : String) (named : List (String × String)) :
    Except Fault (List (Value × Value)) :=
  named.foldlM
    (fun entries (name, s) =>
      match path? opening separator name with
      | none => .ok entries
      | some path =>
        if separator.isEmpty then .error (.plain .value "empty separator")
        else assign s path entries)
    []

def ofFile (source : String) : Except Fault (List (Value × Value)) :=
  match Toml.parse source with
  | .ok (.map entries) => .ok entries
  | .ok _ => .ok []
  | .error (message, .integerTooLong _) => .error (.plain .value message)
  | .error (message, _) => .error (.plain .settings message)

/-- The fault of a settings file that does not exist. -/
def fileMissing (path : String) : Fault :=
  .plain .fileNotFound s!"Config file not found at {path}"

def ofOverrides (overrides : List (Value × Value)) : List (Value × Value) :=
  if overrides.isEmpty then [] else [(.text "neo4j", .map overrides)]

/-- Lays the environment and the overrides over what a file holds. -/
def combine (file environment overrides : List (Value × Value)) : List (Value × Value) :=
  Value.overlayEntries (Value.overlayEntries file environment) (ofOverrides overrides)

/-- Settings from a file, the environment and overrides. -/
def load (file : Except Fault (List (Value × Value))) (named : List (String × String))
    (overrides : List (Value × Value)) : Except Fault Settings := do
  let base ← file
  let environment ← ofEnvironment opening separator named
  Settings.ofValue (section? (combine base environment overrides))

end Layers

end GraphQuery
