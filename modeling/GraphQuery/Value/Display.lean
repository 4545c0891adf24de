import GraphQuery.Decimal.Reading
import GraphQuery.Decimal.Text
import GraphQuery.Text.Display
import GraphQuery.Value.Basic

/-! # Values as messages show them

A message shows a value so that its kind can be seen: texts are quoted, a tuple of one item keeps
its comma, sets are written in braces, and dates and decimals are written as calls. `asText` is the
plain text of a value instead, which leaves a text and the text of a date as they are.
-/

namespace GraphQuery

namespace Value

/-- Items with a comma and a blank between two of them. -/
def commaList (items : List String) : String :=
  ", ".intercalate items

/-- The parts of a time stamp as numbers. Seconds and their fraction may be absent. -/
structure TimeStamp where
  date : List Nat
  hour : Nat
  minute : Nat
  second : Nat
  microsecond : Nat
  /-- The distance to universal time in seconds, if it is known. -/
  offset : Option Int

/-- The numbers written between other characters. -/
def numbersIn (cs : List Char) : List Nat :=
  let (current, found) := cs.foldr
    (fun c (current, found) =>
      if c.isDigit then (c :: current, found)
      else if current.isEmpty then ([], found) else ([], current :: found))
    (([] : List Char), ([] : List (List Char)))
  let words := if current.isEmpty then found else current :: found
  words.map fun digits => Text.ofDigits (digits.map fun c => c.toNat - 48)

/-- The distance to universal time written behind a sign. -/
def offsetIn (negative : Bool) (cs : List Char) : Int :=
  match numbersIn cs with
  | hours :: minutes :: seconds :: _ =>
    Decimal.withSign negative (3600 * hours + 60 * minutes + seconds)
  | [hours, minutes] => Decimal.withSign negative (3600 * hours + 60 * minutes)
  | [hours] => Decimal.withSign negative (3600 * hours)
  | [] => 0

/-- The fraction of a second written behind a point, in microseconds. -/
def microsecondsIn (cs : List Char) : Nat :=
  let digits := (cs.dropWhile (· ≠ '.')).drop 1
  Text.ofDigits (((digits ++ List.replicate 6 '0').take 6).map fun c => c.toNat - 48)

/-- Reads a time stamp in its standard form. -/
def TimeStamp.ofStandard (standard : String) : TimeStamp :=
  let cs := standard.toList
  let clock := (cs.dropWhile (· ≠ 'T')).drop 1
  let time := clock.takeWhile fun c => c.isDigit || c = ':' || c = '.'
  let offset :=
    match clock.drop time.length with
    | [] => none
    | sign :: rest => some (offsetIn (sign = '-') rest)
  let whole := numbersIn (time.takeWhile (· ≠ '.'))
  ⟨numbersIn (cs.takeWhile (· ≠ 'T')), whole[0]?.getD 0, whole[1]?.getD 0, whole[2]?.getD 0,
    microsecondsIn time, offset⟩

/-- A distance to universal time as a duration of whole days and a rest of a day. -/
def displayOffset (seconds : Int) : String :=
  if seconds = 0 then "datetime.timezone.utc"
  else
    let days := seconds.fdiv 86400
    let rest := seconds.fmod 86400
    let wholeDays := if days = 0 then [] else [s!"days={days}"]
    let restOfDay := if rest = 0 then [] else [s!"seconds={rest}"]
    s!"datetime.timezone(datetime.timedelta({commaList (wholeDays ++ restOfDay)}))"

/-- The parts of the time of day: one that is zero is dropped at the end, if no later one is
kept. -/
def TimeStamp.clock (stamp : TimeStamp) : List Nat :=
  let seconds :=
    if stamp.microsecond ≠ 0 then [stamp.second, stamp.microsecond]
    else if stamp.second ≠ 0 then [stamp.second] else []
  [stamp.hour, stamp.minute] ++ seconds

def TimeStamp.display (stamp : TimeStamp) : String :=
  let parts := (stamp.date ++ stamp.clock).map toString
  let zone := match stamp.offset with
    | none => []
    | some offset => [s!"tzinfo={displayOffset offset}"]
  s!"datetime.datetime({commaList (parts ++ zone)})"

/-- A date, a time of day, a time stamp or a decimal as a call. -/
def displayExternal (kind : ExternalKind) (standard : String) : String :=
  match kind with
  | .date => s!"datetime.date({commaList ((numbersIn standard.toList).map toString)})"
  | .time =>
    let clock := (TimeStamp.ofStandard s!"T{standard}").clock
    s!"datetime.time({commaList (clock.map toString)})"
  | .datetime => (TimeStamp.ofStandard standard).display
  | .decimal => s!"Decimal({Text.display standard})"

def braced (items : List String) : String :=
  "\x7b" ++ commaList items ++ "\x7d"

/-- Items of a tuple: a single item is followed by a comma. -/
def displayTuple : List String → String
  | [item] => s!"({item},)"
  | items => s!"({commaList items})"

def displaySet (frozen : Bool) (items : List String) : String :=
  match frozen, items with
  | false, [] => "set()"
  | true, [] => "frozenset()"
  | false, items => braced items
  | true, items => s!"frozenset({braced items})"

mutual

def display : Value → String
  | .null => "None"
  | .bool b => if b then "True" else "False"
  | .int i => toString i
  | .float x => Decimal.display x
  | .text s => Text.display s
  | .list items => s!"[{commaList (displayAll items)}]"
  | .tuple items => displayTuple (displayAll items)
  | .set frozen items => displaySet frozen (displayAll items)
  | .map entries => braced (displayEntries entries)
  | .external kind standard => displayExternal kind standard
  | .entity properties => s!"entity({braced (displayEntries properties)})"
  | .record fields => " ".intercalate (displayFields fields)

/-- Several values as messages show them. -/
def displayAll : List Value → List String
  | [] => []
  | item :: rest => display item :: displayAll rest

/-- The entries of a map as messages show them. -/
def displayEntries : List (Value × Value) → List String
  | [] => []
  | (key, item) :: rest => s!"{display key}: {display item}" :: displayEntries rest

/-- The fields of a record as messages show them. -/
def displayFields : List (String × Value) → List String
  | [] => []
  | (name, item) :: rest => s!"{name}={display item}" :: displayFields rest

end

/-- The text of a time stamp has a blank between date and time. -/
def spacedStamp (standard : String) : String :=
  String.ofList (standard.toList.map fun c => if c = 'T' then ' ' else c)

def asText : Value → String
  | .text s => s
  | .external .datetime standard => spacedStamp standard
  | .external _ standard => standard
  | other => display other

end Value

end GraphQuery
