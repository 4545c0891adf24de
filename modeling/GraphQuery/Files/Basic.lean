import GraphQuery.Fault.Basic
import GraphQuery.Files.Location
import GraphQuery.Text.Encoded

/-! # Files

The files that a run of the program can see, with the folder where it runs. Reading and writing fail
as a file system does: there may be nothing at a location, a folder where a file is expected, or a
file where a folder is. `entryAt?_put_self` says that what is put at a place is found there.
-/

namespace GraphQuery

/-- What can stand at a place. -/
inductive Entry where
  | folder
  | file (bytes : List UInt8)
  deriving DecidableEq, Repr

/-- The files that can be seen, each under the names on the way to it from the root. -/
structure Files where
  /-- The folder where the program runs. -/
  here : List String
  entries : List (List String × Entry)

/-- What is found at a location. -/
inductive Status where
  | missing
  /-- A file stands where a folder should be on the way. -/
  | blocked
  | found (entry : Entry)
  deriving DecidableEq, Repr

namespace Files

/-- What stands at a place. A place on the way to another one is a folder. -/
def entryAt? (files : Files) (place : List String) : Option Entry :=
  match files.entries.lookup place with
  | some entry => some entry
  | none =>
    let leadsTo (other : List String) : Bool := place.isPrefixOf other
    if leadsTo files.here || files.entries.any fun entry => leadsTo entry.1 then some .folder
    else none

/-- Follows names from a place. Two points lead back. -/
def follow (files : Files) (place : List String) : (names : List String) → Status × List String
  | [] =>
    match files.entryAt? place with
    | some entry => (.found entry, place)
    | none => (.missing, place)
  | name :: rest =>
    match files.entryAt? place with
    | some .folder =>
      files.follow (if name = ".." then place.dropLast else place ++ [name]) rest
    | some (.file _) => (.blocked, place)
    | none => (.missing, place)

def start (files : Files) (location : Location) : List String :=
  if location.root.isEmpty then files.here else []

def status (files : Files) (location : Location) : Status :=
  (files.follow (files.start location) location.names).1

/-- Whether there is anything at a location. -/
def contains (files : Files) (location : Location) : Bool :=
  !location.hasNull &&
    match files.status location with
    | .found _ => true
    | _ => false

/-! ## Faults -/

/-- The fault of a location where nothing is. -/
def missing (location : Location) : Fault :=
  .plain .fileNotFound s!"[Errno 2] No such file or directory: {Text.display location.text}"

/-- The fault of a location with a file on the way. -/
def blocked (location : Location) : Fault :=
  .plain .notDirectory s!"[Errno 20] Not a directory: {Text.display location.text}"

/-- The fault of a folder where a file is expected. -/
def isFolder (location : Location) : Fault :=
  .plain .isDirectory s!"[Errno 21] Is a directory: {Text.display location.text}"

/-- The fault of a file where a folder is expected. -/
def isFile (location : Location) : Fault :=
  .plain .fileExists s!"[Errno 17] File exists: {Text.display location.text}"

/-- The fault of a location with a null character. -/
def nullCharacter : Fault :=
  .plain .value "embedded null byte"

/-! ## Reading and writing -/

def read (location : Location) (files : Files) : Except Fault (List UInt8) :=
  if location.hasNull then .error nullCharacter
  else
    match files.status location with
    | .missing => .error (missing location)
    | .blocked => .error (blocked location)
    | .found .folder => .error (isFolder location)
    | .found (.file bytes) => .ok bytes

def decoded (bytes : List UInt8) : Except Fault (List Char) :=
  (Text.decode bytes).mapError fun fault => .plain .unicode (fault.message bytes.length)

/-- The text of a file as it stands. -/
def readExact (location : Location) (files : Files) : Except Fault String := do
  let bytes ← files.read location
  let cs ← decoded bytes
  .ok (String.ofList cs)

/-- The text of a file with plain newlines. -/
def readText (location : Location) (files : Files) : Except Fault String := do
  let bytes ← files.read location
  let cs ← decoded bytes
  .ok (String.ofList (Text.withPlainNewlines cs))

/-- The place that names lead to if every folder on the way is made. -/
def placeOf (place : List String) (names : List String) : List String :=
  names.foldl (fun place name => if name = ".." then place.dropLast else place ++ [name]) place

def put (place : List String) (entry : Entry) (files : Files) : Files :=
  { files with entries := (place, entry) :: files.entries.filter fun other => other.1 ≠ place }

/-- Makes a folder if nothing is at a location. -/
def makeFolder (location : Location) (files : Files) : Except Fault Files :=
  match files.status location with
  | .found .folder => .ok files
  | .found (.file _) => .error (isFile location)
  | .blocked => .error (blocked location)
  | .missing => .ok (files.put (placeOf (files.start location) location.names) .folder)

/-- Makes a folder and the folders on the way to it. -/
def makeFolders (location : Location) (files : Files) : Except Fault Files :=
  match files.status location with
  | .missing => location.ways.foldlM (fun files way => makeFolder way files) files
  | _ => makeFolder location files

/-- Writes a file and makes the folders on the way to it. -/
def write (location : Location) (bytes : List UInt8) (files : Files) : Except Fault Files :=
  if location.hasNull then .error nullCharacter
  else do
    let files ← makeFolders location.parent files
    match files.status location with
    | .found .folder => .error (isFolder location)
    | .blocked => .error (blocked location)
    | _ => .ok (files.put (placeOf (files.start location) location.names) (.file bytes))

def writeText (location : Location) (s : String) (files : Files) : Except Fault Files :=
  files.write location s.toUTF8.toList

theorem entryAt?_put_self (place : List String) (entry : Entry) (files : Files) :
    (files.put place entry).entryAt? place = some entry := by
  simp [put, entryAt?]

end Files

end GraphQuery
