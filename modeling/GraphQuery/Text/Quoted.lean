/-! # Double-quoted text

The quoted form of a text in documents: a quotation mark, a backslash and a control character are
escaped, everything else stands for itself. A document that has to be plain ASCII also escapes
the other characters, those beyond the basic plane as a pair of surrogates.
-/

namespace GraphQuery.Text

/-- A hexadecimal digit in lower case. -/
def hexDigit (n : Nat) : Char :=
  if n < 10 then Char.ofNat (48 + n) else Char.ofNat (87 + n)

/-- The last `width` hexadecimal digits of a number. -/
def hexDigits : (width : Nat) → Nat → List Char
  | 0, _ => []
  | width + 1, n => hexDigits width (n / 16) ++ [hexDigit (n % 16)]

/-- An escape with four hexadecimal digits. -/
def unicodeEscape (unit : Nat) : List Char :=
  '\\' :: 'u' :: hexDigits 4 unit

/-- The escapes of a character in UTF-16 units. -/
def unitEscapes (c : Char) : List Char :=
  if c.toNat < 0x10000 then unicodeEscape c.toNat
  else
    unicodeEscape (0xd800 + (c.toNat - 0x10000) / 0x400) ++
      unicodeEscape (0xdc00 + (c.toNat - 0x10000) % 0x400)

/-- What a character becomes between quotation marks. -/
def escapeQuoted (asciiOnly : Bool) (c : Char) : List Char :=
  if c = '"' then ['\\', '"']
  else if c = '\\' then ['\\', '\\']
  else if c = '\n' then ['\\', 'n']
  else if c = '\r' then ['\\', 'r']
  else if c = '\t' then ['\\', 't']
  else if c = '\x08' then ['\\', 'b']
  else if c = '\x0c' then ['\\', 'f']
  else if c.toNat < 32 then unicodeEscape c.toNat
  else if asciiOnly && 127 < c.toNat then unitEscapes c
  else [c]

def quotedChars (asciiOnly : Bool) (cs : List Char) : List Char :=
  '"' :: cs.flatMap (escapeQuoted asciiOnly) ++ ['"']

example : String.ofList (quotedChars false "a\"b\n\x01é".toList) = "\"a\\\"b\\n\\u0001é\"" := by
  decide +kernel
example : String.ofList (quotedChars true "é😀".toList) = "\"\\u00e9\\ud83d\\ude00\"" := by
  decide +kernel

end GraphQuery.Text
