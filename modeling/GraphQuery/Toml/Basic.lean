import GraphQuery.Value.Display

/-! # Settings files

A settings file is a list of statements in the TOML format. This module says what can be wrong with
one. A fault names the problem and the place where the reader stood, given by the number of
characters that were left.
-/

namespace GraphQuery

namespace Toml

/-- The way to a table or a value: the names of the tables that enclose it and its own. -/
abbrev Path := List String

/-- What can be wrong with a settings file. -/
inductive Problem where
  | badStatement
  | expectedNewline
  | expectedTableEnd
  | expectedTablesEnd
  | expectedEquals
  | expectedQuote (quote : String)
  | badName
  | badValue
  | badDate
  | badEscape
  | badHex
  | notScalar
  | illegalCharacter (c : Char)
  | invalidCharacter (c : Char)
  | unterminatedText
  | unclosedArray
  | unclosedTable
  | occupied
  | declaredTwice (path : Path)
  | redefined (path : Path)
  | immutable (path : Path)
  | duplicateName (name : String)
  | integerTooLong (digits : Nat)
  deriving DecidableEq, Repr

def displayPath (path : Path) : String :=
  (Value.tuple (path.map .text)).display

def displayChar (c : Char) : String :=
  Text.display (String.singleton c)

def Problem.wording : Problem → String
  | .badStatement => "Invalid statement"
  | .expectedNewline => "Expected newline or end of document after a statement"
  | .expectedTableEnd => "Expected ']' at the end of a table declaration"
  | .expectedTablesEnd => "Expected ']]' at the end of an array declaration"
  | .expectedEquals => "Expected '=' after a key in a key/value pair"
  | .expectedQuote quote => s!"Expected {Text.display quote}"
  | .badName => "Invalid initial character for a key part"
  | .badValue => "Invalid value"
  | .badDate => "Invalid date or datetime"
  | .badEscape => "Unescaped '\\' in a string"
  | .badHex => "Invalid hex value"
  | .notScalar => "Escaped character is not a Unicode scalar value"
  | .illegalCharacter c => s!"Illegal character {displayChar c}"
  | .invalidCharacter c => s!"Found invalid character {displayChar c}"
  | .unterminatedText => "Unterminated string"
  | .unclosedArray => "Unclosed array"
  | .unclosedTable => "Unclosed inline table"
  | .occupied => "Cannot overwrite a value"
  | .declaredTwice path => s!"Cannot declare {displayPath path} twice"
  | .redefined path => s!"Cannot redefine namespace {displayPath path}"
  | .immutable path => s!"Cannot mutate immutable namespace {displayPath path}"
  | .duplicateName name => s!"Duplicate inline table key {Text.display name}"
  | .integerTooLong digits => Decimal.tooLongMessage digits

/-- A problem and the number of characters that were left where it was met. -/
structure Fault where
  problem : Problem
  left : Nat
  deriving DecidableEq, Repr

/-- Line and column of a place, both counted from one, or the end of the text. -/
def place (source : List Char) (left : Nat) : String :=
  if left = 0 then "end of document"
  else
    let before := source.take (source.length - left)
    let line := before.count '\n' + 1
    let column := (before.reverse.takeWhile (· ≠ '\n')).length + 1
    s!"line {line}, column {column}"

def Fault.message (source : List Char) (fault : Fault) : String :=
  match fault.problem with
  | .integerTooLong _ => fault.problem.wording
  | problem => s!"{problem.wording} (at {place source fault.left})"

end Toml

end GraphQuery
