import GraphQuery.Toml.Scalar
import GraphQuery.Toml.Table

/-! # Reading settings files

The reader takes one statement after another. A statement declares a table, declares the next table
of an array, or gives a value to a name below the last header.
-/

namespace GraphQuery

namespace Toml

/-- Drops blanks, newlines and comments. -/
def skipFiller (inComment : Bool) : List Char → Except Fault (List Char)
  | [] => .ok []
  | c :: rest =>
    if c = '\n' then skipFiller false rest
    else if inComment then
      if isControl false c then .error ⟨.invalidCharacter c, rest.length + 1⟩
      else skipFiller true rest
    else if c = ' ' || c = '\t' then skipFiller false rest
    else if c = '#' then skipFiller true rest
    else .ok (c :: rest)

/-- Drops a comment up to the end of its line. -/
def skipComment : List Char → Except Fault (List Char)
  | '#' :: rest =>
    match rest.dropWhile fun c => c ≠ '\n' && !isControl false c with
    | [] => .ok []
    | c :: after => if c = '\n' then .ok (c :: after)
      else .error ⟨.invalidCharacter c, after.length + 1⟩
  | cs => .ok cs

/-! ## Names -/

/-- Whether a name may hold a character without quotation marks. -/
def isBare (c : Char) : Bool :=
  c.isAlphanum || c = '-' || c = '_'

def readPart (cs : List Char) : Except Fault (String × List Char) :=
  match cs with
  | '"' :: rest => (readLine rest).map fun (name, after) => (String.ofList name, after)
  | '\'' :: rest =>
    (readVerbatim false "'" rest).map fun (name, after) => (String.ofList name, after)
  | cs =>
    match cs.takeWhile isBare with
    | [] => .error ⟨.badName, cs.length⟩
    | name => .ok (String.ofList name, cs.dropWhile isBare)

/-- Reads a dotted name and the blanks behind it. -/
def readPath : (fuel : Nat) → List Char → Except Fault (Path × List Char)
  | 0, cs => .error ⟨.badName, cs.length⟩
  | fuel + 1, cs => do
    let (name, afterName) ← readPart cs
    match skipBlanks afterName with
    | '.' :: rest =>
      let (path, after) ← readPath fuel (skipBlanks rest)
      .ok (name :: path, after)
    | after => .ok ([name], after)

/-- Reads a dotted name, the equals sign and the blanks behind it. -/
def readAssigned (cs : List Char) : Except Fault (Path × List Char) := do
  let (path, afterPath) ← readPath (cs.length + 1) cs
  match afterPath with
  | '=' :: rest => .ok (path, skipBlanks rest)
  | after => .error ⟨.expectedEquals, after.length⟩

/-! ## Values -/

def readScalar (cs : List Char) : Except Fault (Value × List Char) :=
  match readText? cs with
  | some read => read.map fun (s, after) => (.text (String.ofList s), after)
  | none =>
    match readWord? words cs with
    | some found => .ok found
    | none =>
      match readTime? cs with
      | some read => read
      | none =>
        match readBased? cs with
        | some found => .ok found
        | none =>
          match readDecimal? cs with
          | some read => read
          | none =>
            match readWord? (namedFloats.map fun (word, x) => (word, .float x)) cs with
            | some found => .ok found
            | none => .error ⟨.badValue, cs.length⟩

/-- A problem as a fault where a number of characters is left. -/
def located (left : Nat) {Content : Type} : Except Problem Content → Except Fault Content
  | .ok content => .ok content
  | .error problem => .error ⟨problem, left⟩

mutual

/-- Reads a value. Every call on a value, on items or on fields costs a unit of fuel. -/
def readValue : (fuel : Nat) → List Char → Except Fault (Value × List Char)
  | 0, cs => .error ⟨.badValue, cs.length⟩
  | fuel + 1, cs =>
    match cs with
    | '[' :: rest => do
      let inside ← skipFiller false rest
      let (items, after) ← readItems fuel inside
      .ok (.list items, after)
    | '\x7b' :: rest =>
      match skipBlanks rest with
      | '\x7d' :: after => .ok (.map [], after)
      | inside => do
        let (fields, after) ← readFields fuel [] inside
        .ok (.map (entriesOf fields), after)
    | cs => readScalar cs

/-- Reads the items of an array up to its end. -/
def readItems : (fuel : Nat) → List Char → Except Fault (List Value × List Char)
  | 0, cs => .error ⟨.badValue, cs.length⟩
  | fuel + 1, cs =>
    match cs with
    | ']' :: after => .ok ([], after)
    | cs => do
      let (item, afterItem) ← readValue fuel cs
      match ← skipFiller false afterItem with
      | ']' :: after => .ok ([item], after)
      | ',' :: rest =>
        let inside ← skipFiller false rest
        let (items, after) ← readItems fuel inside
        .ok (item :: items, after)
      | rest => .error ⟨.unclosedArray, rest.length⟩

/-- Reads the fields of an inline table up to its end and adds them to those read before. -/
def readFields : (fuel : Nat) → Fields → List Char → Except Fault (Fields × List Char)
  | 0, _, cs => .error ⟨.badValue, cs.length⟩
  | fuel + 1, before, cs => do
    let (path, afterEquals) ← readAssigned cs
    let (v, afterValue) ← readValue fuel afterEquals
    let fields ← located afterValue.length (setInline path v before)
    match skipBlanks afterValue with
    | '\x7d' :: after => .ok (fields, after)
    | ',' :: rest => readFields fuel fields (skipBlanks rest)
    | rest => .error ⟨.unclosedTable, rest.length⟩

end

/-! ## Statements -/

/-- What was read so far: the tables, the last header, and how many headers there were. -/
structure Progress where
  fields : Fields
  header : Path
  headers : Nat

/-- Reads a header that declares a table, behind its bracket. -/
def readTable (progress : Progress) (cs : List Char) :
    Except Fault (Progress × List Char) := do
  let inside := skipBlanks cs
  let (path, after) ← readPath (inside.length + 1) inside
  let fields ← located after.length (declareTable path progress.fields)
  match after with
  | ']' :: rest => .ok (⟨fields, path, progress.headers + 1⟩, rest)
  | after => .error ⟨.expectedTableEnd, after.length⟩

/-- Reads a header that declares the next table of an array, behind its brackets. -/
def readTables (progress : Progress) (cs : List Char) :
    Except Fault (Progress × List Char) := do
  let inside := skipBlanks cs
  let (path, after) ← readPath (inside.length + 1) inside
  let fields ← located after.length (declareItem path progress.fields)
  match after with
  | ']' :: ']' :: rest => .ok (⟨fields, path, progress.headers + 1⟩, rest)
  | after => .error ⟨.expectedTablesEnd, after.length⟩

/-- Reads a value that is given to a name. -/
def readSetting (progress : Progress) (cs : List Char) :
    Except Fault (Progress × List Char) := do
  let (path, afterEquals) ← readAssigned cs
  let (v, after) ← readValue (2 * afterEquals.length + 2) afterEquals
  let fields ← located after.length
    (setValue progress.headers progress.header path v progress.fields)
  .ok ({ progress with fields := fields }, after)

/-- Whether a statement that gives a value to a name may start with a character. -/
def startsName (c : Char) : Bool :=
  isBare c || c = '"' || c = '\''

/-- Reads a statement, if the line has one. -/
def readStatement (progress : Progress) (cs : List Char) :
    Except Fault (Progress × List Char) :=
  match cs with
  | [] => .ok (progress, [])
  | '[' :: '[' :: rest => readTables progress rest
  | '[' :: rest => readTable progress rest
  | c :: _ =>
    if startsName c then readSetting progress cs
    else if c = '#' || c = '\n' then .ok (progress, cs)
    else .error ⟨.badStatement, cs.length⟩

/-- Reads statements up to the end of the text, each on a line of its own. -/
def readStatements : (fuel : Nat) → Progress → List Char → Except Fault Fields
  | 0, _, cs => .error ⟨.badStatement, cs.length⟩
  | fuel + 1, progress, cs => do
    let (after, afterStatement) ← readStatement progress (skipBlanks cs)
    match ← skipComment (skipBlanks afterStatement) with
    | [] => .ok after.fields
    | '\n' :: rest => readStatements fuel after rest
    | rest => .error ⟨.expectedNewline, rest.length⟩

/-- Replaces a carriage return before a newline by the newline alone. -/
def withNewlines : List Char → List Char
  | [] => []
  | '\r' :: '\n' :: rest => '\n' :: withNewlines rest
  | c :: rest => c :: withNewlines rest

/-- Reads the settings of a file, or says what is wrong with it. -/
def parse (source : String) : Except (String × Problem) Value :=
  let cs := withNewlines source.toList
  match readStatements (cs.length + 1) ⟨[], [], 0⟩ cs with
  | .ok fields => .ok (.map (entriesOf fields))
  | .error fault => .error (fault.message cs, fault.problem)

end Toml

end GraphQuery
