import GraphQuery.Toml.Basic

/-! # Tables under construction

The statements of a settings file build up nested tables. How a table came to be decides what later
statements may do to it: a table that was declared by a header cannot be declared again, and one
that a dotted name made is closed to others when the next header begins. Values are never changed.
-/

namespace GraphQuery

namespace Toml

/-- How a table came to be. -/
inductive Origin where
  /-- On the way to a table inside it. -/
  | implied
  /-- By a header of its own. -/
  | declared
  /-- By a dotted name after a number of headers. -/
  | dotted (headers : Nat)
  deriving DecidableEq, Repr

/-- What stands under a name. -/
inductive Node where
  | value (v : Value)
  | table (origin : Origin) (fields : List (String × Node))
  /-- An array of tables: those that are finished, and the fields of the last one. -/
  | tables (finished : List Value) (fields : List (String × Node))

/-- The fields of a table. -/
abbrev Fields := List (String × Node)

mutual

def Node.toValue : Node → Value
  | .value v => v
  | .table _ fields => .map (entriesOf fields)
  | .tables finished fields => .list (finished ++ [.map (entriesOf fields)])

def entriesOf : List (String × Node) → List (Value × Value)
  | [] => []
  | (name, node) :: rest => (.text name, node.toValue) :: entriesOf rest

end

/-- Whether a value has parts that could be mistaken for tables or arrays of tables. -/
def isCompound : Value → Bool
  | .list _ | .map _ => true
  | _ => false

/-- What may be passed through on the way to a place in the tables. -/
structure Passage where
  /-- The origin of a table at a path once it was passed through. -/
  table : Path → Origin → Except Problem Origin
  /-- Whether an array of tables at a path may be passed through to its last table. -/
  tables : Path → Except Problem Unit
  /-- The problem with a value that has parts. -/
  compound : Problem
  /-- The origin of tables that are missing. -/
  missing : Origin

/-- The problem with a value where a table was expected. -/
def Passage.blocked (passage : Passage) (v : Value) : Problem :=
  if isCompound v then passage.compound else .occupied

/-- Changes the fields at the end of a path. `done` is the path to the tables it starts from. -/
def follow (passage : Passage) (finish : Fields → Except Problem Fields) (done : Path) :
    (path : Path) → Fields → Except Problem Fields
  | [], fields => finish fields
  | name :: rest, fields =>
    let here := done ++ [name]
    match Assoc.get? name fields with
    | none => do
      let inner ← follow passage finish here rest []
      .ok (Assoc.put name (.table passage.missing inner) fields)
    | some (.table origin inner) => do
      let passed ← passage.table here origin
      let changed ← follow passage finish here rest inner
      .ok (Assoc.put name (.table passed changed) fields)
    | some (.tables finished inner) => do
      passage.tables here
      let changed ← follow passage finish here rest inner
      .ok (Assoc.put name (.tables finished changed) fields)
    | some (.value v) => .error (passage.blocked v)

/-- Passes through all tables and leaves them as they are. -/
def anyway (compound : Problem) : Passage :=
  ⟨fun _ origin => .ok origin, fun _ => .ok (), compound, .implied⟩

def declareTable (path : Path) (fields : Fields) : Except Problem Fields :=
  let twice := Problem.declaredTwice path
  let finish (fields : Fields) : Except Problem Fields :=
    match path.getLast? with
    | none => .ok fields
    | some name =>
      match Assoc.get? name fields with
      | none => .ok (Assoc.put name (.table .declared []) fields)
      | some (.table .implied inner) => .ok (Assoc.put name (.table .declared inner) fields)
      | some (.value v) => .error ((anyway twice).blocked v)
      | some _ => .error twice
  follow (anyway twice) finish [] path.dropLast fields

def declareItem (path : Path) (fields : Fields) : Except Problem Fields :=
  let immutable := Problem.immutable path
  let finish (fields : Fields) : Except Problem Fields :=
    match path.getLast? with
    | none => .ok fields
    | some name =>
      match Assoc.get? name fields with
      | none => .ok (Assoc.put name (.tables [] []) fields)
      | some (.tables finished inner) =>
        .ok (Assoc.put name (.tables (finished ++ [.map (entriesOf inner)]) []) fields)
      | some (.value v) => .error ((anyway immutable).blocked v)
      | some (.table _ _) => .error .occupied
  follow (anyway immutable) finish [] path.dropLast fields

/-- Adds a value under a name that is free. -/
def addValue (taken : String → Problem) (path : Path) (v : Value) (fields : Fields) :
    Except Problem Fields :=
  match path.getLast? with
  | none => .ok fields
  | some name =>
    match Assoc.get? name fields with
    | none => .ok (Assoc.put name (.value v) fields)
    | some _ => .error (taken name)

/-- Passes through tables that a dotted name may go through, and marks them. -/
def dottedPassage (headers : Nat) (parent : Path) : Passage where
  table here
    | .declared => .error (.redefined here)
    | .implied => .ok (.dotted headers)
    | .dotted earlier =>
      if earlier < headers then .error (.redefined here) else .ok (.dotted headers)
  tables here := .error (.redefined here)
  compound := .immutable parent
  missing := .dotted headers

/-- Gives a value to a dotted name below a header. -/
def setValue (headers : Nat) (header path : Path) (v : Value) (fields : Fields) :
    Except Problem Fields :=
  let parent := header ++ path.dropLast
  let below := follow (dottedPassage headers parent) (addValue (fun _ => .occupied) path v) header
    path.dropLast
  follow (anyway (.immutable parent)) below [] header fields

/-- Gives a value to a dotted name of an inline table. -/
def setInline (path : Path) (v : Value) (fields : Fields) : Except Problem Fields :=
  let immutable := Problem.immutable path
  let add (fields : Fields) : Except Problem Fields :=
    match path.getLast?.bind fun name => Assoc.get? name fields with
    | some (.value old) =>
      if isCompound old then .error immutable else addValue .duplicateName path v fields
    | _ => addValue .duplicateName path v fields
  follow (anyway immutable) add [] path.dropLast fields

end Toml

end GraphQuery
