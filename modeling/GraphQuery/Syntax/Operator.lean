/-! # Operators

Every operator has a level, and a higher level binds tighter. `OR`, `XOR` and `AND` are weakest,
then `NOT`, the comparisons, sums, products and the negative sign; what is no operation binds
tightest of all.

Which operators data may name is written down apart from their levels. `binaryLevel?_isSome`,
`unaryLevel?_isSome` and `arrow?_isSome` say that the two agree.
-/

namespace GraphQuery

/-- The level of a binary operator, for every operator there is. -/
def binaryLevels : List (String × Nat) := [
  ("OR", 1), ("XOR", 2), ("AND", 3),
  ("=", 5), ("<>", 5), ("<", 5), ("<=", 5), (">", 5), (">=", 5),
  ("IN", 5), ("CONTAINS", 5), ("STARTS WITH", 5), ("ENDS WITH", 5),
  ("+", 6), ("-", 6), ("*", 7), ("/", 7), ("%", 7)
]

/-- The level of a unary operator, for every operator there is. -/
def unaryLevels : List (String × Nat) := [
  ("NOT", 4), ("IS NULL", 5), ("IS NOT NULL", 5), ("-", 8)
]

def binaryLevel? (op : String) : Option Nat :=
  binaryLevels.lookup op

def unaryLevel? (op : String) : Option Nat :=
  unaryLevels.lookup op

/-- The level of what is no operation. -/
def atomLevel : Nat := 10

/-- Whether the order of the operands of an operator does not matter. -/
def isCommutative (op : String) : Bool :=
  op = "AND" || op = "OR"

/-- Whether an operand with the same operator needs no parentheses on either side. -/
def isAssociative (op : String) : Bool :=
  op = "AND" || op = "OR" || op = "XOR" || op = "+" || op = "*"

/-- Whether operators of a level are grouped from the left. -/
def groupsLeft (level : Nat) : Bool :=
  level = 6 || level = 7

/-- The directions of a relationship, each with what is written before and behind it. -/
def arrows : List (String × String × String) := [
  ("out", "-", "->"), ("in", "<-", "-"), ("both", "-", "-")
]

/-- What is written before and behind a relationship with a direction. -/
def arrow? (direction : String) : Option (String × String) :=
  arrows.lookup direction

/-- Whether a text is a direction of sorting. -/
def isSortDirection (direction : String) : Bool :=
  direction = "ASC" || direction = "DESC"

/-! ## What data may name -/

/-- The binary operators: comparisons, connectives, arithmetic and tests of texts and lists. -/
def binaryOperators : List String :=
  ["=", "<>", "<", "<=", ">", ">="] ++ ["AND", "OR", "XOR"] ++ ["+", "-", "*", "/", "%"] ++
    ["IN", "CONTAINS", "STARTS WITH", "ENDS WITH"]

def unaryOperators : List String := ["NOT", "-", "IS NULL", "IS NOT NULL"]

def directions : List String := ["out", "in", "both"]

private theorem isSome_lookup {Item : Type} (key : String) (entries : List (String × Item)) :
    (entries.lookup key).isSome = (entries.map Prod.fst).contains key := by
  induction entries with
  | nil => rfl
  | cons entry rest ih =>
    obtain ⟨name, item⟩ := entry
    rw [List.lookup_cons, List.map_cons, List.contains_cons]
    cases key == name with
    | true => rfl
    | false => simpa using ih

private theorem isSome_lookup_of_perm {Item : Type} {entries : List (String × Item)}
    {names : List String} (perm : (entries.map Prod.fst).Perm names) (key : String) :
    (entries.lookup key).isSome = names.contains key := by
  rw [isSome_lookup, Bool.eq_iff_iff, List.contains_iff_mem, List.contains_iff_mem, perm.mem_iff]

/-- Every binary operator has a level, and nothing else has one. -/
theorem binaryLevel?_isSome (op : String) :
    (binaryLevel? op).isSome = binaryOperators.contains op :=
  isSome_lookup_of_perm (by decide +kernel) op

/-- Every unary operator has a level, and nothing else has one. -/
theorem unaryLevel?_isSome (op : String) : (unaryLevel? op).isSome = unaryOperators.contains op :=
  isSome_lookup_of_perm (by decide +kernel) op

/-- Every direction can be written, and nothing else can. -/
theorem arrow?_isSome (direction : String) :
    (arrow? direction).isSome = directions.contains direction :=
  isSome_lookup_of_perm (by decide +kernel) direction

end GraphQuery
