import GraphQuery.Decimal.Text
import GraphQuery.Sorting
import GraphQuery.Text.Quoted

/-! # Documents

A document is what JSON can express, with whole numbers of any size apart from floats. The fields
of an object keep their order; `sorted` puts them in the order of their names. There are three
layouts: with blanks, compact, and indented.
-/

namespace GraphQuery

/-- Documents. -/
inductive Json where
  | null
  | bool (b : Bool)
  | int (i : Int)
  | float (x : Float)
  | text (s : String)
  | array (items : List Json)
  | object (fields : List (String × Json))
  deriving Inhabited

namespace Json

mutual

/-- Puts the fields of every object in the order of their names. -/
def sorted : Json → Json
  | .array items => .array (sortedItems items)
  | .object fields => .object (sortByText Prod.fst (sortedFields fields))
  | other => other

def sortedItems : List Json → List Json
  | [] => []
  | item :: rest => sorted item :: sortedItems rest

def sortedFields : List (String × Json) → List (String × Json)
  | [] => []
  | (name, item) :: rest => (name, sorted item) :: sortedFields rest

end

/-- What stands between two items and behind a name, and whether only ASCII is written. -/
structure Layout where
  separator : List Char
  colon : List Char
  asciiOnly : Bool

/-- A blank after every comma and colon. -/
def Layout.spaced : Layout := ⟨[',', ' '], [':', ' '], false⟩

/-- No blanks. -/
def Layout.compact : Layout := ⟨[','], [':'], false⟩

def Layout.ascii : Layout := ⟨[','], [':'], true⟩

/-- A number, a constant or a text. -/
def scalarChars (asciiOnly : Bool) : Json → List Char
  | .null => "null".toList
  | .bool b => if b then "true".toList else "false".toList
  | .int i => (toString i).toList
  | .float x => Decimal.floatChars "NaN".toList "Infinity".toList x
  | .text s => Text.quotedChars asciiOnly s.toList
  | .array _ => []
  | .object _ => []

mutual

/-- The characters of a document on one line. -/
def chars (layout : Layout) : Json → List Char
  | .array items => '[' :: itemChars layout items ++ [']']
  | .object fields => '\x7b' :: fieldChars layout fields ++ ['\x7d']
  | scalar => scalarChars layout.asciiOnly scalar

def itemChars (layout : Layout) : List Json → List Char
  | [] => []
  | [item] => chars layout item
  | item :: rest => chars layout item ++ layout.separator ++ itemChars layout rest

def fieldChars (layout : Layout) : List (String × Json) → List Char
  | [] => []
  | [(name, item)] =>
    Text.quotedChars layout.asciiOnly name.toList ++ layout.colon ++ chars layout item
  | (name, item) :: rest =>
    Text.quotedChars layout.asciiOnly name.toList ++ layout.colon ++ chars layout item ++
      layout.separator ++ fieldChars layout rest

end

def write (layout : Layout) (document : Json) : String :=
  String.ofList (chars layout document)

/-- A new line with two blanks per level. -/
def lineBreak (level : Nat) : List Char :=
  '\n' :: List.replicate (2 * level) ' '

mutual

/-- The characters of a document with every item on a line of its own. -/
def indentedChars (level : Nat) : Json → List Char
  | .array [] => ['[', ']']
  | .array items => '[' :: indentedItems (level + 1) items ++ lineBreak level ++ [']']
  | .object [] => ['\x7b', '\x7d']
  | .object fields => '\x7b' :: indentedFields (level + 1) fields ++ lineBreak level ++ ['\x7d']
  | scalar => scalarChars false scalar

/-- The items of an array, each on a line of its own. -/
def indentedItems (level : Nat) : List Json → List Char
  | [] => []
  | [item] => lineBreak level ++ indentedChars level item
  | item :: rest => lineBreak level ++ indentedChars level item ++ ',' :: indentedItems level rest

/-- The fields of an object, each on a line of its own. -/
def indentedFields (level : Nat) : List (String × Json) → List Char
  | [] => []
  | [(name, item)] =>
    lineBreak level ++ Text.quotedChars false name.toList ++ [':', ' '] ++ indentedChars level item
  | (name, item) :: rest =>
    lineBreak level ++ Text.quotedChars false name.toList ++ [':', ' '] ++
      indentedChars level item ++ ',' :: indentedFields level rest

end

/-- A document with every item on a line of its own. -/
def writeIndented (document : Json) : String :=
  String.ofList (indentedChars 0 document)

/-- The compact text of a document with sorted fields. -/
def canonicalText (document : Json) : String :=
  write .compact document.sorted

example : canonicalText (.object [("b", .array [.int 1, .float 1.0]), ("a", .null)]) =
    "\x7b\"a\":null,\"b\":[1,1.0]\x7d" := by decide +kernel

end Json

end GraphQuery
