import GraphQuery.Text.Printable
import GraphQuery.Text.Quoted

/-! # Text as messages show it

Messages show a text between single quotes, or between double quotes if it holds a single quote
and no double one. A backslash, the quote itself and every unprintable character are escaped,
the latter with as many hexadecimal digits as its code point needs: two, four or eight.
-/

namespace GraphQuery.Text

/-- What a character becomes between the given quotes. -/
def escapeDisplayed (quote : Char) (c : Char) : List Char :=
  if c = quote || c = '\\' then ['\\', c]
  else if c = '\n' then ['\\', 'n']
  else if c = '\r' then ['\\', 'r']
  else if c = '\t' then ['\\', 't']
  else if isPrintable c then [c]
  else if c.toNat < 0x100 then '\\' :: 'x' :: hexDigits 2 c.toNat
  else if c.toNat < 0x10000 then '\\' :: 'u' :: hexDigits 4 c.toNat
  else '\\' :: 'U' :: hexDigits 8 c.toNat

/-- The quote under which a text is shown. -/
def displayQuote (cs : List Char) : Char :=
  if cs.contains '\'' && !cs.contains '"' then '"' else '\''

def display (s : String) : String :=
  let quote := displayQuote s.toList
  String.ofList (quote :: s.toList.flatMap (escapeDisplayed quote) ++ [quote])

example : display "it's\n" = "\"it's\\n\"" := by decide +kernel
example : display "a'\"\x7f" = "'a\\'\"\\x7f'" := by decide +kernel

end GraphQuery.Text
