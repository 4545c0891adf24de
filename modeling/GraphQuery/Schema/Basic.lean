import GraphQuery.Fault.Basic

/-! # Schemas

A schema reads a value or reports issues. Whole numbers are read leniently: truth values count as
one and zero, floats and decimals are accepted if they have no fraction, and so are texts that show
a whole number. Texts are read from texts only. A record is read field by field, and the issues of
all fields are reported together.
-/

namespace GraphQuery

/-- The result of reading a value. -/
abbrev Checked (Content : Type) := Except (List Issue) Content

namespace Schema

/-- A single problem with the value itself. -/
def reject {Content : Type} (problem : Problem) : Checked Content :=
  .error [⟨[], problem⟩]

def issues {Content : Type} : Checked Content → List Issue
  | .ok _ => []
  | .error issues => issues

/-- Moves the issues of a result below a key. -/
def under {Content : Type} (key : String) : Checked Content → Checked Content
  | .ok content => .ok content
  | .error issues => .error (issues.map (Issue.under key))

/-! ## Whole numbers -/

/-- Reads digits with single underscores between them. -/
def groupedDigits? : List Char → Option (List Nat)
  | [] => none
  | [c] => if c.isDigit then some [c.toNat - 48] else none
  | c :: '_' :: rest =>
    if c.isDigit then (groupedDigits? rest).map ((c.toNat - 48) :: ·) else none
  | c :: rest => if c.isDigit then (groupedDigits? rest).map ((c.toNat - 48) :: ·) else none

/-- Drops leading zeros, and underscores among them, in front of another digit. -/
def withoutLeadingZeros : List Char → List Char
  | '0' :: rest =>
    match rest.dropWhile fun c => c = '0' || c = '_' with
    | [] => if (('0' :: rest).getLast?) = some '0' then ['0'] else ['_']
    | significant => significant
  | cs => cs

/-- Reads a whole number that is written with a sign, leading zeros, underscores between digits, or
a fraction of zeros. -/
def integerOfText (s : String) : Checked Int :=
  let (negative, body) := Decimal.takeSign (Text.trimBoth Text.isBlank s.toList)
  let whole := body.takeWhile (· ≠ '.')
  let fraction := (body.dropWhile (· ≠ '.')).drop 1
  match groupedDigits? (withoutLeadingZeros whole) with
  | none => reject .integerParsing
  | some digits =>
    if !fraction.all (· = '0') then reject .integerParsing
    else if Decimal.digitLimit < digits.length then reject .integerParsingSize
    else .ok (Decimal.withSign negative (Text.ofDigits digits))

/-- The absolute value below which whole floats are accepted: two to the power of 63. -/
def wordLimit : Int := 9223372036854775808

/-- Reads a float without a fraction, if it is of the size of a machine word. -/
def integerOfFloat (x : Float) : Checked Int :=
  match FloatForm.ofFloat x with
  | .nan | .infinite _ => reject .finiteNumber
  | .finite negative mantissa exponent =>
    let whole := FloatForm.truncate negative mantissa exponent
    if (FloatForm.finite negative mantissa exponent).compareInt whole ≠ some .eq then
      reject .integerFromFloat
    else if -wordLimit < whole && whole < wordLimit then .ok whole
    else reject .integerParsingSize

/-- Reads a decimal without a fraction. -/
def integerOfDecimal (standard : String) : Checked Int :=
  let (negative, body) := Decimal.takeSign standard.toList
  match Decimal.unsigned? body with
  | none => reject .finiteNumber
  | some d =>
    let (tens, overTens) := Decimal.powerOfTen d.scale
    if d.coefficient * tens % overTens ≠ 0 then reject .integerFromFloat
    else .ok (Decimal.withSign negative (d.coefficient * tens / overTens))

def integer : Value → Checked Int
  | .bool b => .ok (if b then 1 else 0)
  | .int i => .ok i
  | .float x => integerOfFloat x
  | .text s => integerOfText s
  | .external .decimal standard => integerOfDecimal standard
  | _ => reject .integerType

/-- Reads a whole number above zero. -/
def positive (value : Value) : Checked Int :=
  match integer value with
  | .ok i => if 0 < i then .ok i else reject .greaterThan
  | .error issues => .error issues

/-! ## Texts, lists and records -/

def text : Value → Checked String
  | .text s => .ok s
  | _ => reject .textType

def nonemptyText (value : Value) : Checked String :=
  match text value with
  | .ok s => if s.isEmpty then reject .textTooShort else .ok s
  | .error issues => .error issues

/-- Reads null or what another schema reads. -/
def nullable {Content : Type} (check : Value → Checked Content) :
    Value → Checked (Option Content)
  | .null => .ok none
  | value =>
    match check value with
    | .ok content => .ok (some content)
    | .error issues => .error issues

/-- Reads items one by one, counting them from a number on. -/
def itemsFrom {Content : Type} (check : Value → Checked Content) :
    (index : Nat) → List Value → Checked (List Content)
  | _, [] => .ok []
  | index, item :: rest =>
    match under (toString index) (check item), itemsFrom check (index + 1) rest with
    | .ok content, .ok contents => .ok (content :: contents)
    | first, others => .error (issues first ++ issues others)

/-- Reads a list. Tuples and sets are lists too. -/
def list {Content : Type} (check : Value → Checked Content) : Value → Checked (List Content)
  | .list items | .tuple items | .set _ items => itemsFrom check 0 items
  | _ => reject .listType

def entries : Value → Checked (List (Value × Value))
  | .map entries => .ok entries
  | _ => reject .recordType

/-- Reads a field that has to be present. -/
def field {Content : Type} (name : String) (check : Value → Checked Content)
    (entries : List (Value × Value)) : Checked Content :=
  match Value.lookup name entries with
  | some value => under name (check value)
  | none => .error [⟨[name], .missing⟩]

/-- Reads a field that may be left out. -/
def fieldOr {Content : Type} (name : String) (absent : Content)
    (check : Value → Checked Content) (entries : List (Value × Value)) : Checked Content :=
  match Value.lookup name entries with
  | some value => under name (check value)
  | none => .ok absent

def recordFields (fields : List (String × (Value → Checked Value)))
    (entries : List (Value × Value)) : Checked (List (String × Value)) :=
  match fields with
  | [] => .ok []
  | (name, check) :: rest =>
    match field name check entries, recordFields rest entries with
    | .ok value, .ok values => .ok ((name, value) :: values)
    | first, others => .error (issues first ++ issues others)

/-- Reads a record with the given fields; other fields are skipped. -/
def record (fields : List (String × (Value → Checked Value))) (value : Value) : Checked Value :=
  match entries value with
  | .error issues => .error issues
  | .ok entries =>
    match recordFields fields entries with
    | .ok values => .ok (.record values)
    | .error issues => .error issues

example : integerOfText " -1_000.0 " = .ok (-1000) := by rfl
example : issues (integerOfFloat 2.5) = [⟨[], .integerFromFloat⟩] := by decide +kernel

end Schema

end GraphQuery
