/-! # Text in files

Files hold text as UTF-8. Bytes that are no such text are refused with the place and the reason: a
byte that starts no character, a character that breaks off before another byte, or one that breaks
off at the end.
-/

namespace GraphQuery.Text

/-- Why bytes are no text. -/
inductive EncodingProblem where
  | badStart
  | badContinuation
  | brokenOff
  deriving DecidableEq, Repr

def EncodingProblem.wording : EncodingProblem → String
  | .badStart => "invalid start byte"
  | .badContinuation => "invalid continuation byte"
  | .brokenOff => "unexpected end of data"

/-- A problem with the bytes that belong to it and the number of bytes that follow them. -/
structure EncodingFault where
  problem : EncodingProblem
  bytes : List UInt8
  following : Nat
  deriving DecidableEq, Repr

/-- The number of bytes of the character that a byte starts. -/
def lengthFrom? (b : UInt8) : Option Nat :=
  if b < 0x80 then some 1
  else if 0xc2 ≤ b && b < 0xe0 then some 2
  else if 0xe0 ≤ b && b < 0xf0 then some 3
  else if 0xf0 ≤ b && b < 0xf5 then some 4
  else none

/-- Whether a byte may follow the first byte of a character. It may neither make the character
longer than needed, nor half a surrogate pair, nor more than the last code point. -/
def follows (first b : UInt8) : Bool :=
  let least := if first = 0xe0 then 0xa0 else if first = 0xf0 then 0x90 else 0x80
  let most := if first = 0xed then 0x9f else if first = 0xf4 then 0x8f else 0xbf
  least ≤ b && b ≤ most

/-- Whether a byte may be the third or fourth of a character. -/
def isContinuation (b : UInt8) : Bool :=
  0x80 ≤ b && b ≤ 0xbf

/-- The bytes in front that belong to a character of a length. -/
def takeCharacter (length : Nat) : List UInt8 → List UInt8
  | first :: second :: rest =>
    if follows first second then
      first :: second :: (rest.take (length - 2)).takeWhile isContinuation
    else [first]
  | bytes => bytes

def lowBits (count : Nat) (b : UInt8) : Nat :=
  b.toNat % Nat.pow 2 count

def characterOf : List UInt8 → Char
  | [a] => Char.ofNat a.toNat
  | [a, b] => Char.ofNat (lowBits 5 a * 64 + lowBits 6 b)
  | [a, b, c] => Char.ofNat ((lowBits 4 a * 64 + lowBits 6 b) * 64 + lowBits 6 c)
  | [a, b, c, d] =>
    Char.ofNat (((lowBits 3 a * 64 + lowBits 6 b) * 64 + lowBits 6 c) * 64 + lowBits 6 d)
  | _ => '\ufffd'

/-- Decodes bytes. Fuel is spent on every character. -/
def decodeFrom : (fuel : Nat) → List UInt8 → Except EncodingFault (List Char)
  | 0, _ => .ok []
  | _, [] => .ok []
  | fuel + 1, b :: rest =>
    match lengthFrom? b with
    | none => .error ⟨.badStart, [b], rest.length⟩
    | some 1 => (decodeFrom fuel rest).map (Char.ofNat b.toNat :: ·)
    | some length =>
      let bytes := takeCharacter length (b :: rest)
      let following := (b :: rest).drop bytes.length
      if bytes.length = length then (decodeFrom fuel following).map (characterOf bytes :: ·)
      else
        let problem := if following.isEmpty then .brokenOff else .badContinuation
        .error ⟨problem, bytes, following.length⟩

def decode (bytes : List UInt8) : Except EncodingFault (List Char) :=
  decodeFrom bytes.length bytes

/-- The two hexadecimal digits of a byte. -/
def hexByte (b : UInt8) : String :=
  String.ofList ((Nat.toDigits 16 (b.toNat + 256)).drop 1)

/-- The bytes of a row of hexadecimal digits, two for each byte. -/
def bytesOfHex : List Char → List UInt8
  | high :: low :: rest =>
    let digit (c : Char) : Nat := if c.isDigit then c.toNat - 48 else c.toLower.toNat - 87
    .ofNat (16 * digit high + digit low) :: bytesOfHex rest
  | _ => []

/-- The message of a fault in a number of bytes. -/
def EncodingFault.message (size : Nat) (fault : EncodingFault) : String :=
  let first := size - fault.following - fault.bytes.length
  let what := match fault.bytes with
    | [b] => s!"byte 0x{hexByte b} in position {first}"
    | bytes => s!"bytes in position {first}-{first + bytes.length - 1}"
  s!"'utf-8' codec can't decode {what}: {fault.problem.wording}"

/-- Replaces a carriage return, alone or before a newline, by a newline. -/
def withPlainNewlines : List Char → List Char
  | [] => []
  | '\r' :: '\n' :: rest => '\n' :: withPlainNewlines rest
  | '\r' :: rest => '\n' :: withPlainNewlines rest
  | c :: rest => c :: withPlainNewlines rest

example : decode [0xc3, 0xa9, 0xf0, 0x9f, 0x98, 0x80] = .ok ['é', '😀'] := by rfl
example : bytesOfHex ['0', 'f', 'A', '0'] = [15, 160] := by rfl
example : decode [0x61, 0xe2, 0x82] = .error ⟨.brokenOff, [0xe2, 0x82], 0⟩ := by rfl

end GraphQuery.Text
