import GraphQuery.Json.Reader
import GraphQuery.Toml.Basic

/-! # Texts, numbers and dates of settings files

Every reader takes characters from the front and returns what it read and what is left.
-/

namespace GraphQuery

namespace Toml

def skipBlanks (cs : List Char) : List Char :=
  cs.dropWhile fun c => c = ' ' || c = '\t'

def skipLines (cs : List Char) : List Char :=
  cs.dropWhile fun c => c = ' ' || c = '\t' || c = '\n'

/-! ## Texts -/

/-- Whether a character has to be escaped. -/
def isControl (multiline : Bool) (c : Char) : Bool :=
  (c.toNat < 32 || c.toNat = 127) && c ≠ '\t' && !(multiline && c = '\n')

/-- The character that an escape of one letter stands for. -/
def escaped? (c : Char) : Option Char :=
  if c = '/' then none else Json.simpleEscape? c

def readHex (count : Nat) (cs : List Char) : Except Fault (Char × List Char) :=
  let digits := cs.take count
  match if digits.length = count then Json.ofHex? digits else none with
  | none => .error ⟨.badHex, cs.length⟩
  | some code =>
    if h : code.isValidChar then .ok (Char.ofNatAux code h, cs.drop count)
    else .error ⟨.notScalar, cs.length - count⟩

/-- Reads an escape behind its backslash. One at the end of a line joins the line to the next
character that is no blank. -/
def readEscape (multiline : Bool) : List Char → Except Fault (List Char × List Char)
  | [] => .error ⟨.badEscape, 0⟩
  | 'u' :: rest => (readHex 4 rest).map fun (c, after) => ([c], after)
  | 'U' :: rest => (readHex 8 rest).map fun (c, after) => ([c], after)
  | c :: rest =>
    match escaped? c with
    | some escaped => .ok ([escaped], rest)
    | none =>
      if !(multiline && (c = ' ' || c = '\t' || c = '\n')) then .error ⟨.badEscape, rest.length⟩
      else
        match skipBlanks (c :: rest) with
        | [] => .ok ([], [])
        | '\n' :: next => .ok ([], skipLines next)
        | after => .error ⟨.badEscape, after.length⟩

/-- Reads a text with escapes up to its closing quotation marks. -/
def readEscaped (multiline : Bool) :
    (fuel : Nat) → List Char → Except Fault (List Char × List Char)
  | 0, cs => .error ⟨.unterminatedText, cs.length⟩
  | fuel + 1, cs =>
    match cs with
    | [] => .error ⟨.unterminatedText, 0⟩
    | '\\' :: rest => do
      let (found, after) ← readEscape multiline rest
      let (others, last) ← readEscaped multiline fuel after
      .ok (found ++ others, last)
    | c :: rest =>
      if c = '"' && !multiline then .ok ([], rest)
      else if c = '"' && rest.take 2 = ['"', '"'] then .ok ([], rest.drop 2)
      else if isControl multiline c then .error ⟨.illegalCharacter c, rest.length + 1⟩
      else do
        let (others, last) ← readEscaped multiline fuel rest
        .ok (c :: others, last)

/-- Reads a text without escapes up to its closing apostrophes. -/
def readVerbatim (multiline : Bool) (quote : String) (cs : List Char) :
    Except Fault (List Char × List Char) :=
  match Text.splitAt? quote.toList cs with
  | none => .error ⟨.expectedQuote quote, 0⟩
  | some (body, after) =>
    match body.dropWhile fun c => !isControl multiline c with
    | [] => .ok (body, after)
    | c :: rest => .error ⟨.invalidCharacter c, rest.length + 1 + quote.length + after.length⟩

/-- Adds up to two more quotation marks that stand behind the end of a text of several lines. -/
def withExtraQuotes (quote : Char) (body : List Char) (after : List Char) :
    List Char × List Char :=
  let extra := (after.take 2).takeWhile (· = quote)
  (body ++ extra, after.drop extra.length)

/-- Drops a newline right behind the opening of a text of several lines. -/
def dropNewline : List Char → List Char
  | '\n' :: rest => rest
  | cs => cs

/-- Reads a text of one line behind its quotation mark. -/
def readLine (rest : List Char) : Except Fault (List Char × List Char) :=
  readEscaped false (rest.length + 1) rest

def readText? : List Char → Option (Except Fault (List Char × List Char))
  | '"' :: '"' :: '"' :: rest =>
    let body := dropNewline rest
    some ((readEscaped true (body.length + 1) body).map fun (cs, after) =>
      withExtraQuotes '"' cs after)
  | '"' :: rest => some (readLine rest)
  | '\'' :: '\'' :: '\'' :: rest =>
    some ((readVerbatim true "'''" (dropNewline rest)).map fun (cs, after) =>
      withExtraQuotes '\'' cs after)
  | '\'' :: rest => some (readVerbatim false "'" rest)
  | _ => none

/-! ## Numbers -/

/-- Takes digits with single underscores between them. -/
def takeGrouped (isDigit : Char → Bool) : List Char → List Char × List Char
  | [] => ([], [])
  | c :: rest =>
    if !isDigit c then ([], c :: rest)
    else
      match rest with
      | '_' :: d :: others =>
        if isDigit d then
          let (digits, after) := takeGrouped isDigit (d :: others)
          (c :: digits, after)
        else ([c], rest)
      | rest =>
        let (digits, after) := takeGrouped isDigit rest
        (c :: digits, after)

def digitValues (digits : List Char) : List Nat :=
  digits.map fun c => c.toNat - 48

/-- The digits that a base allows, by the letter that announces the base. -/
def bases : List (Char × Nat) := [('x', 16), ('b', 2), ('o', 8)]

def isDigitOf (base : Nat) (c : Char) : Bool :=
  (Json.hexValue? c).any (· < base)

/-- Reads an integer that announces its base. -/
def readBased? : List Char → Option (Value × List Char)
  | '0' :: letter :: rest =>
    (bases.lookup letter).bind fun base =>
      let (digits, after) := takeGrouped (isDigitOf base) rest
      if digits.isEmpty then none
      else
        let number := digits.foldl (fun n c => base * n + (Json.hexValue? c).getD 0) 0
        some (.int number, after)
  | _ => none

def takeFraction : List Char → List Char × List Char
  | '.' :: rest =>
    let (digits, after) := takeGrouped Char.isDigit rest
    if digits.isEmpty then ([], '.' :: rest) else (digits, after)
  | cs => ([], cs)

def takeExponent? : List Char → Option (Int × List Char)
  | [] => none
  | c :: rest =>
    if c = 'e' || c = 'E' then
      let (negative, body) := Decimal.takeSign rest
      let (digits, after) := takeGrouped Char.isDigit body
      if digits.isEmpty then none
      else some (Decimal.withSign negative (Text.ofDigits (digitValues digits)), after)
    else none

/-- Reads a decimal number: an integer unless it has a fraction part or an exponent. -/
def readDecimal? (cs : List Char) : Option (Except Fault (Value × List Char)) :=
  let (negative, body) := Decimal.takeSign cs
  let (whole, afterWhole) := match body with
    | '0' :: rest => (['0'], rest)
    | body => takeGrouped Char.isDigit body
  if whole.isEmpty then none
  else
    let (fraction, afterFraction) := takeFraction afterWhole
    let float (exponent : Int) : Value :=
      let d := Decimal.ofParts (digitValues whole) (digitValues fraction) exponent
      .float (if negative then -d.toFloat else d.toFloat)
    some (match takeExponent? afterFraction with
      | some (exponent, after) => .ok (float exponent, after)
      | none =>
        if !fraction.isEmpty then .ok (float 0, afterFraction)
        else if Decimal.digitLimit < whole.length then
          .error ⟨.integerTooLong whole.length, cs.length⟩
        else
          .ok (.int (Decimal.withSign negative (Text.ofDigits (digitValues whole))), afterFraction))

/-- The floats that have names. -/
def namedFloats : List (String × Float) := [
  ("inf", Decimal.infinity), ("nan", 0.0 / 0.0), ("-inf", -Decimal.infinity),
  ("+inf", Decimal.infinity), ("-nan", 0.0 / 0.0), ("+nan", 0.0 / 0.0)]

def words : List (String × Value) :=
  [("true", .bool true), ("false", .bool false)]

def readWord? (words : List (String × Value)) (cs : List Char) : Option (Value × List Char) :=
  words.findSome? fun (word, v) => (Text.afterMark? word.toList cs).map fun after => (v, after)

/-! ## Dates and times -/

/-- Takes a number of decimal digits. -/
def takeDigits? (count : Nat) (cs : List Char) : Option (Nat × List Char) :=
  let digits := cs.take count
  if digits.length = count && digits.all Char.isDigit then
    some (Text.ofDigits (digitValues digits), cs.drop count)
  else none

/-- Takes two digits of a number between two bounds. -/
def takeTwo? (least most : Nat) (cs : List Char) : Option (Nat × List Char) :=
  (takeDigits? 2 cs).bind fun (n, after) =>
    if least ≤ n && n ≤ most then some (n, after) else none

def takeChar? (c : Char) : List Char → Option (List Char)
  | [] => none
  | first :: rest => if first = c then some rest else none

/-- A number with leading zeros. -/
def padded (width n : Nat) : String :=
  let digits := toString n
  "".pushn '0' (width - digits.length) ++ digits

/-- The standard text of a fraction of a second: six digits, or nothing for zero. -/
def standardFraction (digits : List Char) : String :=
  let six := (digits ++ List.replicate 6 '0').take 6
  if six.all (· = '0') then "" else "." ++ String.ofList six

/-- Takes a time of day, in its standard text. -/
def takeTime? (cs : List Char) : Option (String × List Char) := do
  let (hour, afterHour) ← takeTwo? 0 23 cs
  let (minute, afterMinute) ← takeTwo? 0 59 (← takeChar? ':' afterHour)
  let (second, afterSecond) ← takeTwo? 0 59 (← takeChar? ':' afterMinute)
  let fraction := ((takeChar? '.' afterSecond).getD []).takeWhile Char.isDigit
  let after := if fraction.isEmpty then afterSecond else afterSecond.drop (fraction.length + 1)
  let clock := s!"{padded 2 hour}:{padded 2 minute}:{padded 2 second}"
  some (clock ++ standardFraction fraction, after)

/-- Takes a distance to universal time, in its standard text. -/
def takeOffset? : List Char → Option (String × List Char)
  | [] => none
  | c :: rest =>
    if c = 'Z' || c = 'z' then some ("+00:00", rest)
    else if c = '+' || c = '-' then do
      let (hour, afterHour) ← takeTwo? 0 23 rest
      let (minute, after) ← takeTwo? 0 59 (← takeChar? ':' afterHour)
      let sign := if hour = 0 && minute = 0 then '+' else c
      some (String.singleton sign ++ s!"{padded 2 hour}:{padded 2 minute}", after)
    else none

def daysIn (year month : Nat) : Nat :=
  if month = 2 then
    if year % 4 = 0 && (year % 100 ≠ 0 || year % 400 = 0) then 29 else 28
  else if month = 4 || month = 6 || month = 9 || month = 11 then 30
  else 31

/-- Takes a date, in its standard text, and whether there is such a day. -/
def takeDate? (cs : List Char) : Option (String × Bool × List Char) := do
  let (year, afterYear) ← takeDigits? 4 cs
  let (month, afterMonth) ← takeTwo? 1 12 (← takeChar? '-' afterYear)
  let (day, after) ← takeTwo? 1 31 (← takeChar? '-' afterMonth)
  let isDay := 1 ≤ year && day ≤ daysIn year month
  some (s!"{padded 4 year}-{padded 2 month}-{padded 2 day}", isDay, after)

/-- Takes a time of day behind a date. -/
def takeClock? : List Char → Option (String × List Char)
  | [] => none
  | c :: rest => if c = 'T' || c = 't' || c = ' ' then takeTime? rest else none

/-- Reads a date with or without a time of day, or a time of day alone. -/
def readTime? (cs : List Char) : Option (Except Fault (Value × List Char)) :=
  match takeDate? cs with
  | some (_, false, _) => some (.error ⟨.badDate, cs.length⟩)
  | some (date, true, afterDate) =>
    match takeClock? afterDate with
    | none => some (.ok (.external .date date, afterDate))
    | some (clock, afterClock) =>
      let (offset, after) := (takeOffset? afterClock).getD ("", afterClock)
      some (.ok (.external .datetime s!"{date}T{clock}{offset}", after))
  | none => (takeTime? cs).map fun (clock, after) => .ok (.external .time clock, after)

end Toml

end GraphQuery
