import GraphQuery.Proofs.Cypher.Token

/-! # Reading expressions

A reader of expressions by levels, weakest first: `OR`, `XOR`, `AND`, `NOT`, the comparisons and
tests, sums, products and the negative sign. Operators of one level are grouped from the left, and
there is at most one comparison or test. The reader has its own list of operators.

A reader of one level gets the tokens that are left and gives back what it leaves. Its first
argument bounds how deep expressions may be nested.
-/

namespace GraphQuery.Cypher

/-- The operators between two operands, each with its level and its tokens. -/
def operators : List (String × Nat × List String) := [
  ("OR", 1, ["OR"]), ("XOR", 2, ["XOR"]), ("AND", 3, ["AND"]),
  ("=", 5, ["="]), ("<>", 5, ["<>"]), ("<", 5, ["<"]), ("<=", 5, ["<="]), (">", 5, [">"]),
  (">=", 5, [">="]), ("IN", 5, ["IN"]), ("CONTAINS", 5, ["CONTAINS"]),
  ("STARTS WITH", 5, ["STARTS", "WITH"]), ("ENDS WITH", 5, ["ENDS", "WITH"]),
  ("+", 6, ["+"]), ("-", 6, ["-"]), ("*", 7, ["*"]), ("/", 7, ["/"]), ("%", 7, ["%"])
]

/-- The tests behind an operand, each with its tokens. -/
def tests : List (String × List String) := [
  ("IS NULL", ["IS", "NULL"]), ("IS NOT NULL", ["IS", "NOT", "NULL"])
]

/-- Takes a symbol off the tokens. -/
def take? (s : String) : List Token → Option (List Token)
  | .symbol t :: rest => if t = s then some rest else none
  | _ => none

/-- Takes several symbols off the tokens. -/
def takeAll? : List String → List Token → Option (List Token)
  | [], ts => some ts
  | s :: others, ts => (take? s ts).bind (takeAll? others)

/-- Takes an operator of a level off the tokens. -/
def takeOperator? (k : Nat) (ts : List Token) : Option (String × List Token) :=
  operators.findSome? fun (op, level, words) =>
    if level = k then (takeAll? words ts).map fun rest => (op, rest) else none

def takeTest? (ts : List Token) : Option (String × List Token) :=
  tests.findSome? fun (op, words) => (takeAll? words ts).map fun rest => (op, rest)

/-! ## Rows of items -/

section Items

variable {Item : Type} (close : String) (readItem : List Token → Option (Item × List Token))

/-- Reads at least one item, commas between the items and the symbol that closes the row. -/
def readItems : Nat → List Token → Option (List Item × List Token)
  | 0, _ => none
  | count + 1, ts => do
    let (item, rest) ← readItem ts
    match take? "," rest with
    | some rest => (readItems count rest).map fun (items, rest) => (item :: items, rest)
    | none => (take? close rest).map fun rest => ([item], rest)

/-- Reads the items of a row and the symbol that closes it. -/
def readRow (ts : List Token) : Option (List Item × List Token) :=
  match take? close ts with
  | some rest => some ([], rest)
  | none => readItems close readItem ts.length ts

end Items

/-! ## Values -/

def numberValue (negative : Bool) (n : Numeral) : Value :=
  if n.isWhole then .int (n.toInt negative) else .float (n.toFloat negative)

def constants : List (String × Value) := [
  ("null", .null), ("true", .bool true), ("false", .bool false),
  ("NaN", .float FloatForm.nan.toFloat), ("Infinity", .float (FloatForm.infinite false).toFloat)
]

/-- Reads a negative number behind its sign. -/
def readNegative : List Token → Option (Value × List Token)
  | .number n :: rest => some (numberValue true n, rest)
  | .symbol s :: rest =>
    if s = "Infinity" then some (.float (FloatForm.infinite true).toFloat, rest) else none
  | _ => none

/-- Reads an entry of a map: a name, a colon and a value. -/
def readEntry (readItem : List Token → Option (Value × List Token)) :
    List Token → Option ((Value × Value) × List Token)
  | .name key :: rest => do
    let (item, rest) ← (take? ":" rest).bind readItem
    some ((.text key, item), rest)
  | _ => none

def readValue : Nat → List Token → Option (Value × List Token)
  | 0, _ => none
  | fuel + 1, ts =>
    match ts with
    | .number n :: rest => some (numberValue false n, rest)
    | .text s :: rest => some (.text s, rest)
    | .symbol s :: rest =>
      if s = "-" then readNegative rest
      else if s = "[" then
        (readRow "]" (readValue fuel) rest).map fun (items, rest) => (.list items, rest)
      else if s = "\x7b" then
        (readRow "\x7d" (readEntry (readValue fuel)) rest).map fun (entries, rest) => (.map entries, rest)
      else (constants.lookup s).map fun value => (value, rest)
    | _ => none

/-! ## Expressions -/

def readLiteral (ts : List Token) : Option (Tree × List Token) :=
  (readValue ts.length ts).map fun (value, rest) => (.literal value, rest)

/-- Reads what goes on with a name: a point and a property, or the arguments of a call. -/
def readNamed (readInner : List Token → Option (Tree × List Token)) (s : String) (ts : List Token) :
    Option (Tree × List Token) :=
  match take? "." ts with
  | some (.name key :: rest) => some (.property s key, rest)
  | some _ => none
  | none => do
    let (args, rest) ← (take? "(" ts).bind (readRow ")" readInner)
    some (.call s args, rest)

def readParameter : List Token → Option (Tree × List Token)
  | .name s :: rest => some (.parameter s, rest)
  | _ => none

/-- Reads what is no operation. -/
def readAtom (readInner : List Token → Option (Tree × List Token)) :
    List Token → Option (Tree × List Token)
  | .name s :: rest => readNamed readInner s rest
  | .symbol s :: rest =>
    if s = "$" then readParameter rest
    else if s = "(" then do
      let (t, rest) ← readInner rest
      (take? ")" rest).map fun rest => (t, rest)
    else readLiteral (.symbol s :: rest)
  | ts => readLiteral ts

/-- Reads an operator in front of an expression, or else something tighter. -/
def readSigned (op : String) (readSame readTighter : List Token → Option (Tree × List Token))
    (ts : List Token) : Option (Tree × List Token) :=
  match take? op ts with
  | some rest => (readSame rest).map fun (t, rest) => (.unary op t, rest)
  | none => readTighter ts

/-- Reads the comparison or test that goes on with an operand, if there is one. -/
def readTest (readTighter : List Token → Option (Tree × List Token)) (left : Tree) (ts : List Token) :
    Option (Tree × List Token) :=
  match takeOperator? 5 ts with
  | some (op, rest) => (readTighter rest).map fun (right, rest) => (.binary op left right, rest)
  | none =>
    match takeTest? ts with
    | some (op, rest) => some (.unary op left, rest)
    | none => some (left, ts)

/-- Reads the operations of a level that go on with an operand, grouped from the left. -/
def readChain (k : Nat) (readTighter : List Token → Option (Tree × List Token)) :
    Nat → Tree → List Token → Option (Tree × List Token)
  | 0, left, ts => some (left, ts)
  | count + 1, left, ts =>
    match takeOperator? k ts with
    | none => some (left, ts)
    | some (op, rest) => do
      let (right, rest) ← readTighter rest
      readChain k readTighter count (.binary op left right) rest

/-- Reads an expression of a level. -/
def readLevel : Nat → Nat → List Token → Option (Tree × List Token)
  | 0, _, _ => none
  | fuel + 1, k, ts =>
    if k = 8 then readSigned "-" (readLevel fuel 8) (readAtom (readLevel fuel 1)) ts
    else if k = 4 then readSigned "NOT" (readLevel fuel 4) (readLevel fuel 5) ts
    else do
      let (left, rest) ← readLevel fuel (k + 1) ts
      if k = 5 then readTest (readLevel fuel 6) left rest
      else readChain k (readLevel fuel (k + 1)) ts.length left rest

/-- Reads the whole of a text as an expression. There are ten steps of nesting for every token. -/
def read (s : String) : Option Tree := do
  let ts ← lex s.toList
  let (t, rest) ← readLevel (10 * ts.length + 10) 1 ts
  if rest.isEmpty then some t else none

end GraphQuery.Cypher
