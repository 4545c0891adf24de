import GraphQuery.Text.Split

/-! # Locations of files

A location is a row of names, seen from the root or from the folder where the program runs. Empty
names and names that are a single point are dropped when a location is read, and the location
without names is written as a point.
-/

namespace GraphQuery

/-- The location of a file or a folder. -/
structure Location where
  /-- The slashes in front of a location that is seen from the root. -/
  root : String
  names : List String
  deriving DecidableEq, Repr

namespace Location

/-- The slashes in front: two are kept, and any other number counts as one. -/
def rootOf (s : String) : String :=
  match s.toList with
  | '/' :: '/' :: '/' :: _ => "/"
  | '/' :: '/' :: _ => "//"
  | '/' :: _ => "/"
  | _ => ""

def ofText (s : String) : Location :=
  ⟨rootOf s, (Text.splitBy "/" s).filter fun name => !name.isEmpty && name ≠ "."⟩

def text (location : Location) : String :=
  if location.root.isEmpty && location.names.isEmpty then "."
  else location.root ++ "/".intercalate location.names

def parent (location : Location) : Location :=
  { location with names := location.names.dropLast }

/-- The locations on the way to a location, which is the last of them. -/
def ways (location : Location) : List Location :=
  (List.range location.names.length).map fun count =>
    { location with names := location.names.take (count + 1) }

/-- Whether a location has a null character, which no file system accepts. -/
def hasNull (location : Location) : Bool :=
  location.names.any fun name => name.contains '\x00'

example : (ofText "./a//b/.").text = "a/b" ∧ (ofText "").text = "." := by decide +kernel

end Location

end GraphQuery
