import GraphQuery.Decimal.Basic
import GraphQuery.Text.Blank
import GraphQuery.Text.Digit

/-! # Numbers written as text

Callers and the command line may write a number with blanks around it, a sign, digits of any
script, and underscores between digits. Documents are stricter and use the pieces below directly.
-/

namespace GraphQuery.Decimal

open Text

/-- The decimal with these digits before and after the point, times a power of ten. -/
def ofParts (whole fraction : List Nat) (exponent : Int) : Decimal :=
  ⟨ofDigits (whole ++ fraction), exponent - fraction.length⟩

def infinity : Float := 1.0 / 0.0

/-- The float nearest to a decimal. Decimals far beyond the range of floats are settled by their
size alone. -/
def toFloat (d : Decimal) : Float :=
  let size := digitCount d.coefficient + d.scale
  if d.coefficient = 0 || size < -400 then 0.0
  else if 400 < size then infinity
  else if d.scale < 0 then Float.ofScientific d.coefficient true d.scale.natAbs
  else Float.ofScientific d.coefficient false d.scale.natAbs

/-- The digits in front, with what follows them. -/
def spanDigits : List Char → List Nat × List Char
  | [] => ([], [])
  | c :: rest =>
    if c.isDigit then
      let (digits, after) := spanDigits rest
      ((c.toNat - 48) :: digits, after)
    else ([], c :: rest)

/-- A fraction part: a point and at least one digit. -/
def fractionPart? : List Char → Option (List Nat × List Char)
  | '.' :: rest =>
    let (digits, after) := spanDigits rest
    if digits.isEmpty then none else some (digits, after)
  | _ => none

/-- An optional sign in front: whether it is a minus, and what follows. -/
def takeSign : List Char → Bool × List Char
  | '-' :: rest => (true, rest)
  | '+' :: rest => (false, rest)
  | cs => (false, cs)

def withSign (negative : Bool) (n : Nat) : Int :=
  if negative then -(n : Int) else n

/-- An exponent: the letter e, an optional sign and at least one digit. -/
def exponentPart? : List Char → Option (Int × List Char)
  | [] => none
  | c :: rest =>
    if c = 'e' || c = 'E' then
      let (negative, body) := takeSign rest
      let (digits, after) := spanDigits body
      if digits.isEmpty then none else some (withSign negative (ofDigits digits), after)
    else none

/-- Writes every digit in ASCII and drops single underscores between digits. -/
def withoutSeparators? (afterDigit : Bool) : List Char → Option (List Char)
  | [] => some []
  | c :: rest =>
    if c = '_' then
      if afterDigit && rest.head?.any (fun next => (digit? next).isSome)
      then withoutSeparators? false rest else none
    else
      match digit? c with
      | some digit => (withoutSeparators? true rest).map (Char.ofNat (48 + digit) :: ·)
      | none => (withoutSeparators? false rest).map (c :: ·)

/-- The most digits that an integer may be written with. -/
def digitLimit : Nat := 4300

/-- The message about an integer with too many digits. -/
def tooLongMessage (digits : Nat) : String :=
  s!"Exceeds the limit ({digitLimit} digits) for integer string conversion: " ++
    s!"value has {digits} digits; use sys.set_int_max_str_digits() to increase the limit"

/-- Why a text is no integer. -/
inductive IntegerFault where
  | malformed
  | tooLong (digits : Nat)
  deriving DecidableEq, Repr

def integer (s : String) : Except IntegerFault Int :=
  match withoutSeparators? false (trimBoth isBlank s.toList) with
  | none => .error .malformed
  | some cs =>
    let (negative, body) := takeSign cs
    let (digits, after) := spanDigits body
    if digits.isEmpty || !after.isEmpty then .error .malformed
    else if digitLimit < digits.length then .error (.tooLong digits.length)
    else .ok (withSign negative (ofDigits digits))

/-- Reads digits with at most one point among them and an optional exponent. -/
def unsigned? (cs : List Char) : Option Decimal :=
  let (whole, afterWhole) := spanDigits cs
  let (fraction, afterFraction) :=
    match afterWhole with
    | '.' :: rest => spanDigits rest
    | _ => ([], afterWhole)
  if whole.isEmpty && fraction.isEmpty then none
  else
    match afterFraction with
    | [] => some (ofParts whole fraction 0)
    | _ =>
      match exponentPart? afterFraction with
      | some (exponent, []) => some (ofParts whole fraction exponent)
      | _ => none

/-- Reads a float. Infinity and what is not a number have names, in any case. -/
def float? (s : String) : Option Float :=
  (withoutSeparators? false (trimBoth isBlank s.toList)).bind fun cs =>
    let (negative, body) := takeSign cs
    let name := String.ofList (body.map Char.toLower)
    let magnitude :=
      if name = "inf" || name = "infinity" then some infinity
      else if name = "nan" then some (0.0 / 0.0)
      else (unsigned? body).map toFloat
    magnitude.map fun x => if negative then -x else x

example : (float? " 4_9.5e-1 ").map Float.toBits = some (4.95 : Float).toBits := by decide +kernel
example : integer "-٣" = .ok (-3) := by rfl

end GraphQuery.Decimal
