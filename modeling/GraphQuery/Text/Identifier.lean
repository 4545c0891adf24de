/-! # Identifiers

An identifier is an ASCII letter or underscore followed by ASCII letters, digits and underscores.
Where a line is expected to hold one, the newline that ends the line may still be there.
-/

namespace GraphQuery.Text

/-- Whether an identifier may start with a character. -/
def startsIdentifier (c : Char) : Bool :=
  c.isAlpha || c == '_'

/-- Whether an identifier may go on with a character. -/
def continuesIdentifier (c : Char) : Bool :=
  c.isAlphanum || c == '_'

def isIdentifier : List Char → Bool
  | [] => false
  | c :: rest => startsIdentifier c && rest.all continuesIdentifier

def withoutFinalNewline : List Char → List Char
  | [] => []
  | ['\n'] => []
  | c :: rest => c :: withoutFinalNewline rest

/-- Whether the characters are a line that holds an identifier. -/
def isIdentifierLine (cs : List Char) : Bool :=
  isIdentifier (withoutFinalNewline cs)

example : isIdentifierLine "_a1\n".toList = true := by decide +kernel
example : isIdentifierLine "a\n\n".toList = false := by decide +kernel
example : isIdentifierLine "é".toList = false := by decide +kernel

end GraphQuery.Text
