import GraphQuery.Assoc
import GraphQuery.Decimal.Reading
import GraphQuery.Json.Basic
import GraphQuery.Text.Split

/-! # Reading documents

The reader takes the characters of a text from left to right. Besides the standard grammar it knows
`NaN`, `Infinity` and `-Infinity`; a name that is repeated in an object keeps its first place
and its last value. A fault names the problem and the place where the reader stood, given by the
number of characters that were left.

The reader itself follows brackets to any depth. `isTooDeep` says whether it would have gone deeper
than a limit.
-/

namespace GraphQuery

namespace Json

/-- Why a text is no document. -/
inductive Problem where
  | expectingValue
  | expectingName
  | expectingColon
  | expectingComma
  | extraData
  | unterminatedText
  | controlCharacter
  | badEscape
  | badUnicodeEscape
  | byteOrderMark
  | integerTooLong (digits : Nat)
  deriving DecidableEq, Repr

/-- A problem and the number of characters that were left where it was met. -/
structure Fault where
  problem : Problem
  left : Nat
  deriving DecidableEq, Repr

def skipBlanks : List Char → List Char
  | [] => []
  | c :: rest =>
    if c = ' ' || c = '\t' || c = '\n' || c = '\r' then skipBlanks rest else c :: rest

def hexValue? (c : Char) : Option Nat :=
  if '0' ≤ c && c ≤ '9' then some (c.toNat - 48)
  else if 'a' ≤ c && c ≤ 'f' then some (c.toNat - 87)
  else if 'A' ≤ c && c ≤ 'F' then some (c.toNat - 55)
  else none

/-- The number that hexadecimal digits denote. -/
def ofHex? (digits : List Char) : Option Nat :=
  digits.foldl (fun value c => value.bind fun n => (hexValue? c).map (16 * n + ·)) (some 0)

/-- The character that an escape of one letter stands for. -/
def simpleEscape? (c : Char) : Option Char :=
  if c = '"' then some '"'
  else if c = '\\' then some '\\'
  else if c = '/' then some '/'
  else if c = 'b' then some '\x08'
  else if c = 'f' then some '\x0c'
  else if c = 'n' then some '\n'
  else if c = 'r' then some '\r'
  else if c = 't' then some '\t'
  else none

/-- Whether a unit is the first half of a surrogate pair. -/
def isHighSurrogate (unit : Nat) : Bool :=
  0xd800 ≤ unit && unit < 0xdc00

/-- Whether a unit is the second half of a surrogate pair. -/
def isLowSurrogate (unit : Nat) : Bool :=
  0xdc00 ≤ unit && unit < 0xe000

/-- The character of a unit. Half a surrogate pair stands for no character and is replaced. -/
def ofUnit (unit : Nat) : Char :=
  if 0xd800 ≤ unit && unit < 0xe000 then '\ufffd' else Char.ofNat unit

/-- The character of a surrogate pair. -/
def ofPair (high low : Nat) : Char :=
  Char.ofNat (0x10000 + (high - 0xd800) * 0x400 + (low - 0xdc00))

/-- Puts a character in front of what was read. -/
def consChar (c : Char) :
    Except Fault (List Char × List Char) → Except Fault (List Char × List Char)
  | .ok (cs, rest) => .ok (c :: cs, rest)
  | .error fault => .error fault

/-- Reads a text behind its opening quotation mark, where `opening` characters were left. An escape
with four digits must not end the document. -/
def readText (opening : Nat) : List Char → Except Fault (List Char × List Char)
  | [] => .error ⟨.unterminatedText, opening⟩
  | '"' :: rest => .ok ([], rest)
  | ['\\'] => .error ⟨.unterminatedText, opening⟩
  | '\\' :: 'u' :: a :: b :: c :: d :: '\\' :: 'u' :: e :: f :: g :: h :: after :: rest =>
    match ofHex? [a, b, c, d] with
    | none => .error ⟨.badUnicodeEscape, rest.length + 12⟩
    | some unit =>
      if isHighSurrogate unit then
        match ofHex? [e, f, g, h] with
        | none => .error ⟨.badUnicodeEscape, rest.length + 6⟩
        | some low =>
          if isLowSurrogate low then consChar (ofPair unit low) (readText opening (after :: rest))
          else consChar (ofUnit unit)
            (readText opening ('\\' :: 'u' :: e :: f :: g :: h :: after :: rest))
      else consChar (ofUnit unit)
        (readText opening ('\\' :: 'u' :: e :: f :: g :: h :: after :: rest))
  | '\\' :: 'u' :: a :: b :: c :: d :: after :: rest =>
    match ofHex? [a, b, c, d] with
    | none => .error ⟨.badUnicodeEscape, rest.length + 6⟩
    | some unit => consChar (ofUnit unit) (readText opening (after :: rest))
  | '\\' :: 'u' :: rest => .error ⟨.badUnicodeEscape, rest.length + 1⟩
  | '\\' :: c :: rest =>
    match simpleEscape? c with
    | none => .error ⟨.badEscape, rest.length + 2⟩
    | some escaped => consChar escaped (readText opening rest)
  | c :: rest =>
    if c.toNat < 32 then .error ⟨.controlCharacter, rest.length + 1⟩
    else consChar c (readText opening rest)

/-- The whole part of a number: a zero, or digits that do not start with one. -/
def wholePart : List Char → List Nat × List Char
  | '0' :: rest => ([0], rest)
  | cs => Decimal.spanDigits cs

/-- Reads a number: a whole number unless it has a fraction part or an exponent. -/
def readNumber (cs : List Char) : Except Fault (Json × List Char) :=
  let (negative, body) := match cs with
    | '-' :: rest => (true, rest)
    | _ => (false, cs)
  let (whole, afterWhole) := wholePart body
  if whole.isEmpty then .error ⟨.expectingValue, cs.length⟩
  else
    let (fraction, afterFraction) := (Decimal.fractionPart? afterWhole).getD ([], afterWhole)
    match Decimal.exponentPart? afterFraction with
    | none =>
      if fraction.isEmpty then
        if Decimal.digitLimit < whole.length then .error ⟨.integerTooLong whole.length, cs.length⟩
        else .ok (.int (Decimal.withSign negative (Text.ofDigits whole)), afterFraction)
      else
        let x := (Decimal.ofParts whole fraction 0).toFloat
        .ok (.float (if negative then -x else x), afterFraction)
    | some (exponent, afterExponent) =>
      let x := (Decimal.ofParts whole fraction exponent).toFloat
      .ok (.float (if negative then -x else x), afterExponent)

/-- The constants, each with the document that it stands for. -/
def constants : List (List Char × Json) := [
  ("null".toList, .null), ("true".toList, .bool true), ("false".toList, .bool false),
  ("NaN".toList, .float (0.0 / 0.0)), ("Infinity".toList, .float Decimal.infinity),
  ("-Infinity".toList, .float (-Decimal.infinity))
]

def readScalar (cs : List Char) : Except Fault (Json × List Char) :=
  match constants.findSome? fun (word, value) => (Text.afterMark? word cs).map (value, ·) with
  | some found => .ok found
  | none => readNumber cs

mutual

/-- Reads a value. Every call on a value or on members costs a unit of fuel. -/
def readValue : (fuel : Nat) → List Char → Except Fault (Json × List Char)
  | 0, cs => .error ⟨.expectingValue, cs.length⟩
  | fuel + 1, cs =>
    match cs with
    | '"' :: rest => do
      let (s, after) ← readText cs.length rest
      .ok (.text (String.ofList s), after)
    | '[' :: rest =>
      match skipBlanks rest with
      | ']' :: after => .ok (.array [], after)
      | inside => do
        let (items, after) ← readItems fuel inside
        .ok (.array items, after)
    | '\x7b' :: rest =>
      match skipBlanks rest with
      | '\x7d' :: after => .ok (.object [], after)
      | inside => do
        let (fields, after) ← readFields fuel inside
        .ok (.object (Assoc.ofPairs fields), after)
    | _ => readScalar cs

/-- Reads the items of an array up to its end. -/
def readItems : (fuel : Nat) → List Char → Except Fault (List Json × List Char)
  | 0, cs => .error ⟨.expectingValue, cs.length⟩
  | fuel + 1, cs => do
    let (item, afterItem) ← readValue fuel cs
    match skipBlanks afterItem with
    | ']' :: rest => .ok ([item], rest)
    | ',' :: rest =>
      let (items, after) ← readItems fuel (skipBlanks rest)
      .ok (item :: items, after)
    | rest => .error ⟨.expectingComma, rest.length⟩

/-- Reads the fields of an object up to its end. -/
def readFields : (fuel : Nat) → List Char → Except Fault (List (String × Json) × List Char)
  | 0, cs => .error ⟨.expectingValue, cs.length⟩
  | fuel + 1, cs =>
    match cs with
    | '"' :: afterQuote => do
      let (name, afterName) ← readText cs.length afterQuote
      match skipBlanks afterName with
      | ':' :: afterColon =>
        let (item, afterItem) ← readValue fuel (skipBlanks afterColon)
        match skipBlanks afterItem with
        | '\x7d' :: rest => .ok ([(String.ofList name, item)], rest)
        | ',' :: rest =>
          let (fields, after) ← readFields fuel (skipBlanks rest)
          .ok ((String.ofList name, item) :: fields, after)
        | rest => .error ⟨.expectingComma, rest.length⟩
      | rest => .error ⟨.expectingColon, rest.length⟩
    | _ => .error ⟨.expectingName, cs.length⟩

end

/-- Reads the characters of a document. Two units of fuel per character are enough: a bracket opens
a value and the first of its members. -/
def parseChars (cs : List Char) : Except Fault Json :=
  match cs with
  | '\ufeff' :: _ => .error ⟨.byteOrderMark, cs.length⟩
  | _ =>
    match readValue (2 * cs.length + 2) (skipBlanks cs) with
    | .error fault => .error fault
    | .ok (document, after) =>
      match skipBlanks after with
      | [] => .ok document
      | rest => .error ⟨.extraData, rest.length⟩

def parse (source : String) : Except Fault Json :=
  parseChars source.toList

/-- The deepest level of brackets in characters, outside of texts. -/
def deepest : (level : Nat) → (inText : Bool) → List Char → Nat
  | level, _, [] => level
  | level, true, '\\' :: _ :: rest => deepest level true rest
  | level, true, c :: rest => deepest level (c ≠ '"') rest
  | level, false, c :: rest =>
    if c = '[' || c = '\x7b' then deepest (level + 1) false rest
    else if c = ']' || c = '\x7d' then max level (deepest (level - 1) false rest)
    else deepest level (c = '"') rest

/-- What the reader takes of a text until it ends. -/
def taken (source : String) : List Char :=
  match parse source with
  | .ok _ => source.toList
  | .error fault => source.toList.take (source.toList.length - fault.left)

/-- Whether the reader goes deeper into a text than a number of levels. -/
def isTooDeep (depth : Nat) (source : String) : Bool :=
  depth < deepest 0 false (taken source)

def Problem.wording : Problem → String
  | .expectingValue => "Expecting value"
  | .expectingName => "Expecting property name enclosed in double quotes"
  | .expectingColon => "Expecting ':' delimiter"
  | .expectingComma => "Expecting ',' delimiter"
  | .extraData => "Extra data"
  | .unterminatedText => "Unterminated string starting at"
  | .controlCharacter => "Invalid control character at"
  | .badEscape => "Invalid \\escape"
  | .badUnicodeEscape => "Invalid \\uXXXX escape"
  | .byteOrderMark => "Unexpected UTF-8 BOM (decode using utf-8-sig)"
  | .integerTooLong digits => Decimal.tooLongMessage digits

/-- Line, column and position of a place, all but the last counted from one. -/
def place (source : List Char) (position : Nat) : String :=
  let before := source.take position
  let line := before.count '\n' + 1
  let column := (before.reverse.takeWhile (· ≠ '\n')).length + 1
  s!"line {line} column {column} (char {position})"

def Fault.message (source : String) (fault : Fault) : String :=
  match fault.problem with
  | .integerTooLong _ => fault.problem.wording
  | problem =>
    let cs := source.toList
    s!"{problem.wording}: {place cs (cs.length - fault.left)}"

end Json

end GraphQuery
