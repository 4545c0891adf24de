import GraphQuery.Proofs.Cypher.Expression
import Mathlib.Tactic.Ring

/-! # The meaning of arithmetic

Arithmetic over integers, with a division and a remainder that round towards zero and are not
defined for the divisor zero. The text of an expression is read with the meaning of the expression
as long as the factors on the right of a product are pure: when such a factor is a product itself,
it has no division and no remainder in the row of operations that it starts with.
-/

namespace GraphQuery

namespace Tree

/-- What properties and parameters stand for. -/
structure Assignment where
  property : String → String → Int
  parameter : String → Int

def arithmeticOperators : List String := ["+", "-", "*", "/", "%"]

/-- Expressions of integers, properties and parameters. -/
inductive Arithmetic : Tree → Prop where
  | literal (i : Int) : Arithmetic (.literal (.int i))
  | property (subject key : String) : Arithmetic (.property subject key)
  | parameter (name : String) : Arithmetic (.parameter name)
  | negation {t : Tree} : Arithmetic t → Arithmetic (.unary "-" t)
  | operation {op : String} {left right : Tree} : op ∈ arithmeticOperators →
    Arithmetic left → Arithmetic right → Arithmetic (.binary op left right)

/-- The result of an operation, if there is one. -/
def compute? (op : String) (x y : Int) : Option Int :=
  if op = "+" then some (x + y)
  else if op = "-" then some (x - y)
  else if op = "*" then some (x * y)
  else if y = 0 then none
  else if op = "/" then some (x.tdiv y)
  else if op = "%" then some (x.tmod y)
  else none

/-- The integer that an expression denotes, if it denotes one. -/
def integer? (a : Assignment) : Tree → Option Int
  | .literal (.int i) => some i
  | .property subject key => some (a.property subject key)
  | .parameter name => some (a.parameter name)
  | .unary op t => if op = "-" then (integer? a t).map (- ·) else none
  | .binary op left right =>
    (integer? a left).bind fun x => (integer? a right).bind fun y => compute? op x y
  | _ => none

/-- Whether the row of operations that a product starts with holds no division and no remainder. -/
def isPure : Tree → Bool
  | .binary op left _ => if binaryLevel? op = some 7 then op = "*" && isPure left else true
  | _ => true

/-- Whether products on the right of a product are pure. -/
def hasPureFactors : Tree → Bool
  | .binary op left right =>
    (!(right.continues op && op = "*") || right.isPure) && hasPureFactors left && hasPureFactors right
  | .unary _ t => hasPureFactors t
  | _ => true

theorem exists_level_of_arithmetic {op : String} (operator : op ∈ arithmeticOperators) :
    ∃ k, binaryLevel? op = some k := by
  have table : ∀ op ∈ arithmeticOperators, (binaryLevel? op).isSome = true := by decide
  exact Option.isSome_iff_exists.mp (table op operator)

theorem Arithmetic.formed {t : Tree} (arithmetic : t.Arithmetic) : t.FormedExpression := by
  induction arithmetic with
  | literal i => exact .literal rfl
  | property subject key => exact .property subject key
  | parameter name => exact .parameter name
  | negation _ ih => exact .unary (show unaryLevel? "-" = some 8 by decide) ih
  | @operation op _ _ operator _ _ left right =>
    obtain ⟨k, known⟩ := exists_level_of_arithmetic operator
    exact .binary known left right

/-! ## Grafting -/

section Grafting

variable (a : Assignment)

theorem integer?_binary (op : String) (left right : Tree) : integer? a (.binary op left right) =
    (integer? a left).bind fun x => (integer? a right).bind fun y => compute? op x y := rfl

theorem integer?_product (left right : Tree) : integer? a (.binary "*" left right) =
    (integer? a left).bind fun x => (integer? a right).map (x * ·) := by
  rw [integer?_binary]
  cases integer? a left with
  | none => rfl
  | some x => cases integer? a right <;> rfl

private theorem integer?_sum (left right : Tree) : integer? a (.binary "+" left right) =
    (integer? a left).bind fun x => (integer? a right).map (x + ·) := by
  rw [integer?_binary]
  cases integer? a left with
  | none => rfl
  | some x => cases integer? a right <;> rfl

/-- Whatever is added to the first summand is added to the sum. -/
theorem integer?_graft_sum (left t : Tree) :
    integer? a (graft 6 (.binary "+" left) t) = integer? a (.binary "+" left t) := by
  have table : ∀ entry ∈ binaryLevels, entry.2 = 6 → entry.1 = "+" ∨ entry.1 = "-" := by decide
  fun_induction graft 6 (.binary "+" left) t with
  | case1 op first second known ih =>
    rw [integer?_binary, ih, integer?_sum, integer?_sum, integer?_binary]
    cases integer? a left with
    | none => rfl
    | some x =>
      cases integer? a first with
      | none => rfl
      | some y =>
        cases integer? a second with
        | none => rfl
        | some z =>
          rcases table _ (Cypher.mem_of_lookup known) rfl with rfl | rfl
          · exact congrArg some (Int.add_assoc x y z)
          · exact congrArg some (Int.add_sub_assoc x y z)
  | case2 => rfl
  | case3 => rfl

/-- Whatever the first factor of a pure product is multiplied with, the product is. -/
theorem integer?_graft_product (left : Tree) {t : Tree} (pure' : t.isPure = true) :
    integer? a (graft 7 (.binary "*" left) t) = integer? a (.binary "*" left t) := by
  fun_induction graft 7 (.binary "*" left) t with
  | case1 op first second known ih =>
    rw [isPure, if_pos known, Bool.and_eq_true, decide_eq_true_eq] at pure'
    obtain ⟨rfl, inner⟩ := pure'
    rw [integer?_product, ih inner, integer?_product, integer?_product, integer?_product]
    cases integer? a left with
    | none => rfl
    | some x =>
      cases integer? a first with
      | none => rfl
      | some y =>
        cases integer? a second with
        | none => rfl
        | some z => exact congrArg some (Int.mul_assoc x y z)
  | case2 => rfl
  | case3 => rfl

end Grafting

/-! ## Reading pure factors -/

private theorem isPure_of_level_ne {t : Tree} (other : t.level ≠ 7) : t.isPure = true := by
  cases t with
  | binary op left right =>
    have unequal : binaryLevel? op ≠ some 7 := fun known => other (level_binary known left right)
    rw [isPure, if_neg unequal]
  | _ => rfl

theorem isPure_graft (left : Tree) {t : Tree} (pureLeft : left.isPure = true) (pure' : t.isPure = true) :
    (graft 7 (.binary "*" left) t).isPure = true := by
  have known : binaryLevel? "*" = some 7 := by decide
  fun_induction graft 7 (.binary "*" left) t with
  | case1 op first second same ih =>
    rw [isPure, if_pos same, Bool.and_eq_true] at pure' ⊢
    exact ⟨pure'.1, ih pure'.2⟩
  | case2 => simp [isPure, known, pureLeft]
  | case3 => simp [isPure, known, pureLeft]

/-- Products stay pure when they are read. -/
theorem isPure_reading {t : Tree} (arithmetic : t.Arithmetic) (factors : t.hasPureFactors = true)
    (pure' : t.isPure = true) : t.reading.isPure = true := by
  induction arithmetic with
  | literal i =>
    rw [reading]
    split <;> rfl
  | property | parameter | negation => rfl
  | @operation op left right operator _ _ ihLeft ihRight =>
    simp only [hasPureFactors, Bool.and_eq_true] at factors
    obtain ⟨⟨own, factorsLeft⟩, factorsRight⟩ := factors
    by_cases product : binaryLevel? op = some 7
    · rw [isPure, if_pos product, Bool.and_eq_true, decide_eq_true_eq] at pure'
      obtain ⟨rfl, pureLeft⟩ := pure'
      have first := ihLeft factorsLeft pureLeft
      rw [reading]
      split
      · rename_i goesOn
        rw [level_of_continues product goesOn]
        exact isPure_graft _ first (ihRight factorsRight (by simpa [goesOn] using own))
      · simpa [isPure, product] using first
    · obtain ⟨k, known⟩ := exists_level_of_arithmetic operator
      apply isPure_of_level_ne
      rw [level_reading_binary known]
      rintro rfl
      exact product known

/-- An expression whose factors are pure keeps its meaning when it is read. -/
theorem integer?_reading {a : Assignment} {t : Tree} (arithmetic : t.Arithmetic)
    (factors : t.hasPureFactors = true) : integer? a t.reading = integer? a t := by
  induction arithmetic with
  | literal i =>
    rw [reading, Value.magnitude?]
    split
    · rename_i magnitude same
      split at same
      · obtain rfl : Value.int (-i) = magnitude := by simpa using same
        simp [integer?]
      · simp at same
    · rfl
  | property | parameter => rfl
  | negation _ ih =>
    have operand := ih factors
    simp only [reading, integer?, operand]
  | @operation op left right operator arithmeticLeft arithmeticRight ihLeft ihRight =>
    simp only [hasPureFactors, Bool.and_eq_true] at factors
    obtain ⟨⟨own, factorsLeft⟩, factorsRight⟩ := factors
    have operands : integer? a (.binary op left.reading right.reading) =
        integer? a (.binary op left right) := by
      rw [integer?_binary, integer?_binary, ihLeft factorsLeft, ihRight factorsRight]
    rw [reading]
    split
    · rename_i goesOn
      have table : ∀ op ∈ arithmeticOperators, isAssociative op = true → op = "+" ∨ op = "*" := by decide
      rcases table op operator (isAssociative_of_continues goesOn) with rfl | rfl
      · rw [level_of_continues (show binaryLevel? "+" = some 6 by decide) goesOn, integer?_graft_sum]
        exact operands
      · have product : right.reading.isPure = true :=
          isPure_reading arithmeticRight factorsRight (by simpa [goesOn] using own)
        rw [level_of_continues (show binaryLevel? "*" = some 7 by decide) goesOn,
          integer?_graft_product a _ product]
        exact operands
    · exact operands

end Tree

end GraphQuery
