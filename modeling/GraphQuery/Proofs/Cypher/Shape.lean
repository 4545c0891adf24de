import GraphQuery.Proofs.Cypher.Arithmetic

/-! # Shapes of arithmetic

Expressions of one shape differ only in their leaves. Every shape has expressions of any value that
keep it when they are read, even if the first factor of the row of operations that they start with
is multiplied with something on the way. Such an expression `Carries` its value: other parts of an
expression may be looked at as if it were not there.
-/

namespace GraphQuery

namespace Tree

/-- Whether a tree is an integer, a property or a parameter. -/
def isLeaf : Tree → Bool
  | .literal (.int _) | .property _ _ | .parameter _ => true
  | _ => false

private theorem facts_of_isLeaf {t : Tree} (leaf : t.isLeaf = true) :
    t.Arithmetic ∧ (∀ op, t.continues op = false) ∧ t.isPure = true ∧ t.hasPureFactors = true := by
  cases t with
  | literal value =>
    cases value with
    | int i => exact ⟨.literal i, fun _ => rfl, rfl, rfl⟩
    | _ => simp [isLeaf] at leaf
  | property subject key => exact ⟨.property subject key, fun _ => rfl, rfl, rfl⟩
  | parameter name => exact ⟨.parameter name, fun _ => rfl, rfl, rfl⟩
  | _ => simp [isLeaf] at leaf

/-- Whether expressions differ only in their leaves. -/
inductive SameShape : Tree → Tree → Prop where
  | leaf {t other : Tree} : t.isLeaf = true → other.isLeaf = true → SameShape t other
  | negation {t other : Tree} : SameShape t other → SameShape (.unary "-" t) (.unary "-" other)
  | operation (op : String) {left right otherLeft otherRight : Tree} :
    SameShape left otherLeft → SameShape right otherRight →
      SameShape (.binary op left right) (.binary op otherLeft otherRight)

namespace SameShape

variable {t other : Tree}

theorem continues_eq (same : SameShape t other) (op : String) : t.continues op = other.continues op := by
  cases same with
  | leaf first second => rw [(facts_of_isLeaf first).2.1, (facts_of_isLeaf second).2.1]
  | negation | operation => rfl

theorem isPure_eq (same : SameShape t other) : t.isPure = other.isPure := by
  induction same with
  | leaf first second => rw [(facts_of_isLeaf first).2.2.1, (facts_of_isLeaf second).2.2.1]
  | negation => rfl
  | operation op _ _ ih _ => rw [isPure, isPure, ih]

theorem hasPureFactors_eq (same : SameShape t other) : t.hasPureFactors = other.hasPureFactors := by
  induction same with
  | leaf first second => rw [(facts_of_isLeaf first).2.2.2, (facts_of_isLeaf second).2.2.2]
  | negation _ ih => exact ih
  | operation op _ right ihLeft ihRight =>
    simp only [hasPureFactors, ihLeft, ihRight, right.continues_eq op, right.isPure_eq]

theorem arithmetic (same : SameShape t other) (known : other.Arithmetic) : t.Arithmetic := by
  induction same with
  | leaf first _ => exact (facts_of_isLeaf first).1
  | negation _ ih =>
    cases known with
    | negation known => exact .negation (ih known)
  | operation op _ _ ihLeft ihRight =>
    cases known with
    | operation operator left right => exact .operation operator (ihLeft left) (ihRight right)

end SameShape

/-! ## Products -/

/-- A product as it is read: operations that continue it are regrouped. -/
def product (left right : Tree) : Tree :=
  if right.continues "*" then graft 7 (.binary "*" left) right.reading else .binary "*" left right.reading

theorem reading_product (left right : Tree) :
    (binary "*" left right).reading = product left.reading right := by
  have known : binaryLevel? "*" = some 7 := by decide
  rw [reading, product]
  split
  · rename_i goesOn
    rw [level_of_continues known goesOn]
  · rfl

theorem graft_product (factor left right : Tree) :
    graft 7 (.binary "*" factor) (product left right) =
      product (graft 7 (.binary "*" factor) left) right := by
  have known : binaryLevel? "*" = some 7 := by decide
  rw [product, product]
  split
  · exact graft_graft known _ _ _
  · exact graft_binary known _ _ _

theorem reading_of_separate {op : String} (separate : isAssociative op = false) (left right : Tree) :
    (binary op left right).reading = .binary op left.reading right.reading := by
  rw [reading, not_continues_of_separate separate, if_neg Bool.false_ne_true]

/-- Multiplying the first factor by one changes nothing. -/
theorem integer?_graft_one {a : Assignment} {left : Tree} (one : integer? a left = some 1) (t : Tree) :
    integer? a (graft 7 (.binary "*" left) t) = integer? a t := by
  have single (t : Tree) : integer? a (.binary "*" left t) = integer? a t := by
    rw [integer?_product, one]
    simp
  fun_induction graft 7 (.binary "*" left) t with
  | case1 op first second _ ih => rw [integer?_binary, integer?_binary, ih]
  | case2 => exact single _
  | case3 => exact single _

/-! ## Carriers -/

/-- Expressions with a value that reading keeps, also if the first factor is multiplied with a
number within the bound. -/
structure Carries (a : Assignment) (t : Tree) (n : Int) (bound : Nat) : Prop where
  value : integer? a t = some n
  read : integer? a t.reading = some n
  grafted : ∀ {left : Tree} {x : Int}, integer? a left = some x → x.natAbs ≤ bound →
    integer? a (graft 7 (.binary "*" left) t.reading) = some (x * n)

namespace Carries

variable {a : Assignment} {t left right : Tree} {n m : Int} {bound : Nat}

/-- What is no product is multiplied as a whole. -/
theorem of_level_ne (formed : t.FormedExpression) (other : t.level ≠ 7) (value : integer? a t = some n)
    (read : integer? a t.reading = some n) : Carries a t n bound := by
  refine ⟨value, read, ?_⟩
  intro left x known _
  have unequal : t.reading.level ≠ 7 :=
    fun same => other (level_of_level_reading formed (by decide) same)
  rw [graft_of_level_ne unequal, integer?_product, known, read]
  rfl

/-- A carrier on the right of a product multiplies by its value. -/
theorem product (carries : Carries a right m bound) (known : integer? a left = some n)
    (within : n.natAbs ≤ bound) : integer? a (product left right) = some (n * m) := by
  rw [Tree.product]
  split
  · exact carries.grafted known within
  · rw [integer?_product, known, carries.read]
    rfl

theorem mul {inner : Nat} (carriesLeft : Carries a left n bound) (carriesRight : Carries a right m inner)
    (own : n.natAbs ≤ inner) (within : bound * n.natAbs ≤ inner) :
    Carries a (.binary "*" left right) (n * m) bound := by
  refine ⟨?_, ?_, ?_⟩
  · rw [integer?_product, carriesLeft.value, carriesRight.value]
    rfl
  · rw [reading_product]
    exact carriesRight.product carriesLeft.read own
  · intro factor x known le
    have first := carriesLeft.grafted known le
    have bounded : (x * n).natAbs ≤ inner := by
      rw [Int.natAbs_mul]
      exact (Nat.mul_le_mul_right _ le).trans within
    rw [reading_product, graft_product, carriesRight.product first bounded, Int.mul_assoc]

/-- A division or a remainder that changes neither the value nor a multiple of it. -/
theorem divide {op : String} (operator : op = "/" ∨ op = "%") (carriesLeft : Carries a left n bound)
    (carriesRight : Carries a right m 0) (keeps : compute? op n m = some n)
    (keepsMultiple : ∀ x : Int, x.natAbs ≤ bound → compute? op (x * n) m = some (x * n)) :
    Carries a (.binary op left right) n bound := by
  have known : binaryLevel? op = some 7 := by
    rcases operator with rfl | rfl <;> decide
  have separate : isAssociative op = false := by
    rcases operator with rfl | rfl <;> decide
  refine ⟨?_, ?_, ?_⟩
  · rw [integer?_binary, carriesLeft.value, carriesRight.value]
    exact keeps
  · rw [reading_of_separate separate, integer?_binary, carriesLeft.read, carriesRight.read]
    exact keeps
  · intro factor x value le
    rw [reading_of_separate separate, graft_binary known, integer?_binary, carriesLeft.grafted value le,
      carriesRight.read]
    exact keepsMultiple x le

theorem integer (a : Assignment) (n : Int) (bound : Nat) : Carries a (.literal (.int n)) n bound :=
  of_level_ne (.literal rfl) (show atomLevel ≠ 7 by decide) rfl (integer?_reading (.literal n) rfl)

end Carries

end Tree

end GraphQuery
