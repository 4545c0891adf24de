import GraphQuery.Proofs.Cypher.Shape

/-! # Where arithmetic loses its meaning

A product on the right of a product is written without parentheses. If the row of operations that it
starts with holds a division or a remainder, the text multiplies before it divides, and for some
leaves that makes a difference. Any expression around it can be given leaves that let the difference
through, so the text of a shape keeps its meaning for all leaves exactly if its factors are pure.
-/

namespace GraphQuery

namespace Tree

/-- Whether an expression has the given shape and integers for its leaves. -/
inductive Labels : Tree → Tree → Prop where
  | leaf (i : Int) {t : Tree} : t.isLeaf = true → Labels (.literal (.int i)) t
  | negation {u t : Tree} : Labels u t → Labels (.unary "-" u) (.unary "-" t)
  | operation (op : String) {left right t other : Tree} : Labels left t → Labels right other →
    Labels (.binary op left right) (.binary op t other)

theorem Labels.sameShape {u t : Tree} (labels : Labels u t) : SameShape u t := by
  induction labels with
  | leaf i leaf => exact .leaf rfl leaf
  | negation _ ih => exact .negation ih
  | operation op _ _ ihLeft ihRight => exact .operation op ihLeft ihRight

theorem Labels.formed {u t : Tree} (labels : Labels u t) (arithmetic : t.Arithmetic) : u.FormedExpression :=
  (labels.sameShape.arithmetic arithmetic).formed

theorem Labels.hasPlainNames {u t : Tree} (labels : Labels u t) : u.hasPlainNames = true := by
  induction labels with
  | leaf => rfl
  | negation _ ih => exact ih
  | operation _ _ _ ihLeft ihRight => simp [Tree.hasPlainNames, ihLeft, ihRight]

section Labelling

variable (a : Assignment)

private theorem arithmeticOperators_cases {op : String} (operator : op ∈ arithmeticOperators) :
    (op = "+" ∨ op = "-") ∨ op = "*" ∨ op = "/" ∨ op = "%" := by
  simpa [arithmeticOperators, or_assoc] using operator

private theorem tmod_eq_self {x : Int} {m : Nat} (small : x.natAbs < m) : x.tmod m = x := by
  rcases Int.natAbs_eq x with same | same
  · rw [same]
    exact Int.tmod_eq_of_lt (by omega) (by omega)
  · rw [same, Int.neg_tmod, Int.tmod_eq_of_lt (by omega) (by omega)]

private theorem compute?_remainder {x : Int} {m : Nat} (small : x.natAbs < m) :
    compute? "%" x m = some x := by
  have nonzero : m ≠ 0 := by omega
  simp [compute?, nonzero, tmod_eq_self small]

private theorem compute?_zero {op : String} (sum : op = "+" ∨ op = "-") (x : Int) :
    compute? op x 0 = some x := by
  rcases sum with rfl | rfl <;> simp [compute?]

private theorem compute?_quotient_one (x : Int) : compute? "/" x 1 = some x := by
  simp [compute?]

private theorem integer?_reading_binary {op : String} (operator : op ∈ arithmeticOperators) (other : op ≠ "*")
    (left right : Tree) : integer? a (binary op left right).reading =
      integer? a (.binary op left.reading right.reading) := by
  have table : ∀ op ∈ arithmeticOperators, op ≠ "*" → isAssociative op = true → op = "+" := by decide
  rw [reading]
  split
  · rename_i goesOn
    obtain rfl := table op operator other (isAssociative_of_continues goesOn)
    rw [level_of_continues (show binaryLevel? "+" = some 6 by decide) goesOn, integer?_graft_sum]
  · rfl

private theorem carries_sum {op : String} (sum : op = "+" ∨ op = "-") {left right : Tree} {n : Int}
    {bound : Nat} (formedLeft : left.FormedExpression) (formedRight : right.FormedExpression)
    (carriesLeft : Carries a left n 0) (carriesRight : Carries a right 0 0) :
    Carries a (.binary op left right) n bound := by
  have known : binaryLevel? op = some 6 := by
    rcases sum with rfl | rfl <;> decide
  have arithmetic : op ∈ arithmeticOperators ∧ op ≠ "*" := by
    rcases sum with rfl | rfl <;> decide
  refine .of_level_ne (.binary known formedLeft formedRight) ?_ ?_ ?_
  · rw [level_binary known]
    decide
  · rw [integer?_binary, carriesLeft.value, carriesRight.value]
    exact compute?_zero sum n
  · rw [integer?_reading_binary a arithmetic.1 arithmetic.2, integer?_binary, carriesLeft.read,
      carriesRight.read]
    exact compute?_zero sum n

/-- Every shape has an expression that carries a given number. -/
theorem exists_carries {t : Tree} (arithmetic : t.Arithmetic) (n : Int) (bound : Nat) :
    ∃ u, Labels u t ∧ Carries a u n bound := by
  induction arithmetic generalizing n bound with
  | literal | property | parameter => exact ⟨_, .leaf n rfl, .integer a n bound⟩
  | negation arithmetic ih =>
    obtain ⟨u, labels, carries⟩ := ih (-n) 0
    have known : unaryLevel? "-" = some 8 := by decide
    refine ⟨_, .negation labels, .of_level_ne (.unary known (labels.formed arithmetic)) ?_ ?_ ?_⟩
    · rw [level_unary known]
      decide
    · simp [integer?, carries.value]
    · simp [reading, integer?, carries.read]
  | @operation op left right operator arithmeticLeft arithmeticRight ihLeft ihRight =>
    rcases arithmeticOperators_cases operator with sum | rfl | rfl | rfl
    · obtain ⟨u, labelsLeft, carriesLeft⟩ := ihLeft n 0
      obtain ⟨v, labelsRight, carriesRight⟩ := ihRight 0 0
      exact ⟨_, .operation op labelsLeft labelsRight, carries_sum a sum
        (labelsLeft.formed arithmeticLeft) (labelsRight.formed arithmeticRight) carriesLeft carriesRight⟩
    · obtain ⟨u, labelsLeft, carriesLeft⟩ := ihLeft n bound
      obtain ⟨v, labelsRight, carriesRight⟩ := ihRight 1 (n.natAbs + bound * n.natAbs)
      refine ⟨_, .operation "*" labelsLeft labelsRight, ?_⟩
      have carries := carriesLeft.mul carriesRight (Nat.le_add_right _ _) (Nat.le_add_left _ _)
      rwa [Int.mul_one] at carries
    · obtain ⟨u, labelsLeft, carriesLeft⟩ := ihLeft n bound
      obtain ⟨v, labelsRight, carriesRight⟩ := ihRight 1 0
      exact ⟨_, .operation "/" labelsLeft labelsRight, .divide (.inl rfl) carriesLeft carriesRight
        (compute?_quotient_one n) fun x _ => compute?_quotient_one (x * n)⟩
    · obtain ⟨u, labelsLeft, carriesLeft⟩ := ihLeft n bound
      obtain ⟨v, labelsRight, carriesRight⟩ := ihRight (n.natAbs + bound * n.natAbs + 1 : Nat) 0
      refine ⟨_, .operation "%" labelsLeft labelsRight, .divide (.inr rfl) carriesLeft carriesRight
        (compute?_remainder ?_) fun x within => compute?_remainder ?_⟩
      · omega
      · have scaled := Nat.mul_le_mul_right n.natAbs within
        rw [Int.natAbs_mul]
        omega

/-! ## A difference -/

/-- Every impure row of operations has an expression that is changed when its first factor is
multiplied by two. -/
theorem exists_changed {t : Tree} (arithmetic : t.Arithmetic) (impure : t.isPure = false) :
    ∃ u s m, Labels u t ∧ integer? a u = some s ∧
      (∀ left, integer? a left = some 2 → integer? a (graft 7 (.binary "*" left) u.reading) = some m) ∧
      (s = 1 ∧ m = 3 ∨ s = 3 ∧ m = 2) := by
  induction arithmetic with
  | literal | property | parameter | negation => simp [isPure] at impure
  | @operation op left right operator arithmeticLeft arithmeticRight ihLeft _ =>
    rcases arithmeticOperators_cases operator with sum | rfl | rfl | rfl
    · have other : binaryLevel? op ≠ some 7 := by
        rcases sum with rfl | rfl <;> decide
      simp [isPure, other] at impure
    · have inner : left.isPure = false := by
        simpa [isPure, show binaryLevel? "*" = some 7 by decide] using impure
      obtain ⟨u, s, m, labels, value, changed, numbers⟩ := ihLeft inner
      obtain ⟨v, labelsRight, carries⟩ := exists_carries a arithmeticRight 1 3
      refine ⟨_, s, m, .operation "*" labels labelsRight, ?_, ?_, numbers⟩
      · rw [integer?_product, value, carries.value]
        simp
      · intro factor two
        rw [reading_product, graft_product, carries.product (changed factor two) (by omega), Int.mul_one]
    · obtain ⟨u, labelsLeft, carriesLeft⟩ := exists_carries a arithmeticLeft 3 2
      obtain ⟨v, labelsRight, carriesRight⟩ := exists_carries a arithmeticRight 2 0
      refine ⟨_, 1, 3, .operation "/" labelsLeft labelsRight, ?_, ?_, .inl ⟨rfl, rfl⟩⟩
      · rw [integer?_binary, carriesLeft.value, carriesRight.value]
        rfl
      · intro factor two
        rw [reading_of_separate (by decide), graft_binary (by decide), integer?_binary,
          carriesLeft.grafted two (by decide), carriesRight.read]
        rfl
    · obtain ⟨u, labelsLeft, carriesLeft⟩ := exists_carries a arithmeticLeft 3 2
      obtain ⟨v, labelsRight, carriesRight⟩ := exists_carries a arithmeticRight 4 0
      refine ⟨_, 3, 2, .operation "%" labelsLeft labelsRight, ?_, ?_, .inr ⟨rfl, rfl⟩⟩
      · rw [integer?_binary, carriesLeft.value, carriesRight.value]
        rfl
      · intro factor two
        rw [reading_of_separate (by decide), graft_binary (by decide), integer?_binary,
          carriesLeft.grafted two (by decide), carriesRight.read]
        rfl

/-! ## A difference that shows -/

/-- Whether the sizes of two numbers, and the difference of the sizes, are at least a number. -/
def Apart (n : Nat) (p q : Int) : Prop :=
  n ≤ p.natAbs ∧ n ≤ q.natAbs ∧ (p.natAbs + n ≤ q.natAbs ∨ q.natAbs + n ≤ p.natAbs)

/-- Whether reading changes the value of an expression so much. -/
def Differs (t : Tree) (n : Nat) : Prop :=
  ∃ p q, integer? a t = some p ∧ integer? a t.reading = some q ∧ Apart n p q

section Operands

variable {a} {op : String} {left right : Tree} {p q x : Int}

private theorem differs_left (operator : op ∈ arithmeticOperators) (other : op ≠ "*") {n : Nat}
    (value : integer? a left = some p) (read : integer? a left.reading = some q) (apart : Apart n p q)
    (carries : Carries a right x 0) (keeps : compute? op p x = some p)
    (keepsRead : compute? op q x = some q) :
    Differs a (.binary op left right) n := by
  refine ⟨p, q, ?_, ?_, apart⟩
  · rw [integer?_binary, value, carries.value]
    exact keeps
  · rw [integer?_reading_binary a operator other, integer?_binary, read, carries.read]
    exact keepsRead

private theorem differs_right (operator : op ∈ arithmeticOperators) (other : op ≠ "*") {n : Nat} {y z : Int}
    (value : integer? a right = some p) (read : integer? a right.reading = some q)
    (carries : Carries a left x 0) (result : compute? op x p = some y) (resultRead : compute? op x q = some z)
    (apart : Apart n y z) : Differs a (.binary op left right) n := by
  refine ⟨y, z, ?_, ?_, apart⟩
  · rw [integer?_binary, value, carries.value]
    exact result
  · rw [integer?_reading_binary a operator other, integer?_binary, read, carries.read]
    exact resultRead

end Operands

private theorem exists_differs_left {op : String} (operator : op ∈ arithmeticOperators) {left right : Tree}
    (inner : ∀ n, ∃ u, Labels u left ∧ Differs a u n) (arithmetic : right.Arithmetic) (n : Nat) :
    ∃ u, Labels u (.binary op left right) ∧ Differs a u n := by
  obtain ⟨u, labels, p, q, value, read, apart⟩ := inner n
  rcases arithmeticOperators_cases operator with sum | rfl | rfl | rfl
  · obtain ⟨v, labelsRight, carries⟩ := exists_carries a arithmetic 0 0
    have other : op ≠ "*" := by
      rcases sum with rfl | rfl <;> decide
    exact ⟨_, .operation op labels labelsRight, differs_left operator other value read apart carries
      (compute?_zero sum p) (compute?_zero sum q)⟩
  · obtain ⟨v, labelsRight, carries⟩ := exists_carries a arithmetic 1 q.natAbs
    refine ⟨_, .operation "*" labels labelsRight, p, q, ?_, ?_, apart⟩
    · rw [integer?_product, value, carries.value]
      simp
    · rw [reading_product, carries.product read le_rfl, Int.mul_one]
  · obtain ⟨v, labelsRight, carries⟩ := exists_carries a arithmetic 1 0
    exact ⟨_, .operation "/" labels labelsRight, differs_left operator (by decide) value read apart carries
      (compute?_quotient_one p) (compute?_quotient_one q)⟩
  · obtain ⟨v, labelsRight, carries⟩ := exists_carries a arithmetic (p.natAbs + q.natAbs + 1 : Nat) 0
    exact ⟨_, .operation "%" labels labelsRight, differs_left operator (by decide) value read apart carries
      (compute?_remainder (by omega)) (compute?_remainder (by omega))⟩

private theorem apart_remainders {n : Nat} {p q : Int} (apart : Apart (2 * (n + 1)) p q) :
    ∃ x : Int, Apart n (x.tmod p) (x.tmod q) := by
  obtain ⟨large, largeRead, smaller | smaller⟩ := apart
  · refine ⟨(p.natAbs + (n + 1) : Nat), ?_⟩
    simp only [Apart, Int.natAbs_tmod, Int.natAbs_natCast]
    have first : (p.natAbs + (n + 1)) % p.natAbs = n + 1 := by
      rw [Nat.add_mod_left, Nat.mod_eq_of_lt (by omega)]
    have second : (p.natAbs + (n + 1)) % q.natAbs = p.natAbs + (n + 1) := Nat.mod_eq_of_lt (by omega)
    omega
  · refine ⟨(q.natAbs + (n + 1) : Nat), ?_⟩
    simp only [Apart, Int.natAbs_tmod, Int.natAbs_natCast]
    have first : (q.natAbs + (n + 1)) % q.natAbs = n + 1 := by
      rw [Nat.add_mod_left, Nat.mod_eq_of_lt (by omega)]
    have second : (q.natAbs + (n + 1)) % p.natAbs = q.natAbs + (n + 1) := Nat.mod_eq_of_lt (by omega)
    omega

private theorem exists_differs_right {op : String} (operator : op ∈ arithmeticOperators) {left right : Tree}
    (arithmetic : left.Arithmetic) (inner : ∀ n, ∃ u, Labels u right ∧ Differs a u n) (n : Nat) :
    ∃ u, Labels u (.binary op left right) ∧ Differs a u n := by
  rcases arithmeticOperators_cases operator with sum | rfl | rfl | rfl
  · obtain ⟨u, labels, p, q, value, read, apart⟩ := inner n
    obtain ⟨v, labelsLeft, carries⟩ := exists_carries a arithmetic 0 0
    refine ⟨_, .operation op labelsLeft labels, ?_⟩
    rcases sum with rfl | rfl
    · exact differs_right operator (by decide) value read carries rfl rfl (by simpa using apart)
    · exact differs_right operator (by decide) value read carries rfl rfl (by simpa [Apart] using apart)
  · obtain ⟨u, labels, p, q, value, read, apart⟩ := inner n
    obtain ⟨v, labelsLeft, carries⟩ := exists_carries a arithmetic 1 0
    refine ⟨_, .operation "*" labelsLeft labels, p, q, ?_, ?_, apart⟩
    · rw [integer?_product, value, carries.value]
      simp
    · rw [reading_product, product]
      split
      · rw [integer?_graft_one carries.read, read]
      · rw [integer?_product, carries.read, read]
        simp
  · obtain ⟨u, labels, p, q, value, read, large, largeRead, apart⟩ := inner (n + 1)
    obtain ⟨v, labelsLeft, carries⟩ := exists_carries a arithmetic (p * q) 0
    have nonzero : p ≠ 0 ∧ q ≠ 0 := by omega
    refine ⟨_, .operation "/" labelsLeft labels, differs_right operator (by decide) value read carries
      (y := q) (z := p) ?_ ?_ ?_⟩
    · simp [compute?, nonzero]
    · simp [compute?, nonzero]
    · exact ⟨by omega, by omega, by omega⟩
  · obtain ⟨u, labels, p, q, value, read, apart⟩ := inner (2 * (n + 1))
    obtain ⟨x, remainders⟩ := apart_remainders apart
    obtain ⟨v, labelsLeft, carries⟩ := exists_carries a arithmetic x 0
    have nonzero : p ≠ 0 ∧ q ≠ 0 := by
      obtain ⟨large, largeRead, _⟩ := apart
      omega
    refine ⟨_, .operation "%" labelsLeft labels, differs_right operator (by decide) value read carries
      ?_ ?_ remainders⟩
    · simp [compute?, nonzero]
    · simp [compute?, nonzero]

private theorem exists_differs_product {left right : Tree} (arithmeticLeft : left.Arithmetic)
    (arithmeticRight : right.Arithmetic) (goesOn : right.continues "*" = true)
    (impure : right.isPure = false) (n : Nat) :
    ∃ u, Labels u (.binary "*" left right) ∧ Differs a u n := by
  have known : binaryLevel? "*" = some 7 := by decide
  cases arithmeticRight with
  | @operation op first second _ arithmeticFirst arithmeticSecond =>
    obtain ⟨rfl, -⟩ : op = "*" ∧ isAssociative "*" = true := by
      simpa [continues] using goesOn
    have inner : first.isPure = false := by simpa [isPure, known] using impure
    obtain ⟨u, s, m, labels, value, changed, numbers⟩ := exists_changed a arithmeticFirst inner
    obtain ⟨v, labelsLeft, carriesLeft⟩ := exists_carries a arithmeticLeft 2 0
    obtain ⟨w, labelsSecond, carriesSecond⟩ := exists_carries a arithmeticSecond n 3
    refine ⟨_, .operation "*" labelsLeft (.operation "*" labels labelsSecond), 2 * (s * n), m * n, ?_, ?_, ?_⟩
    · rw [integer?_product, integer?_product, carriesLeft.value, value, carriesSecond.value]
      rfl
    · have continued : (binary "*" u w).continues "*" = true := by simp [continues, isAssociative]
      rw [reading_product, product, if_pos continued, reading_product, graft_product]
      exact carriesSecond.product (changed _ carriesLeft.read) (by omega)
    · rcases numbers with ⟨rfl, rfl⟩ | ⟨rfl, rfl⟩
      · exact ⟨by omega, by omega, by omega⟩
      · exact ⟨by omega, by omega, by omega⟩
  | _ => simp [continues] at goesOn

/-- Every shape with impure factors has an expression whose value reading changes by as much as one
likes. -/
theorem exists_differs {t : Tree} (arithmetic : t.Arithmetic) (impure : t.hasPureFactors = false) (n : Nat) :
    ∃ u, Labels u t ∧ Differs a u n := by
  induction arithmetic generalizing n with
  | literal | property | parameter => simp [hasPureFactors] at impure
  | negation _ ih =>
    obtain ⟨u, labels, p, q, value, read, apart⟩ := ih impure n
    refine ⟨_, .negation labels, -p, -q, ?_, ?_, by simpa [Apart] using apart⟩
    · simp [integer?, value]
    · simp [reading, integer?, read]
  | @operation op left right operator arithmeticLeft arithmeticRight ihLeft ihRight =>
    cases impureLeft : left.hasPureFactors with
    | false => exact exists_differs_left a operator (ihLeft impureLeft) arithmeticRight n
    | true =>
      cases impureRight : right.hasPureFactors with
      | false => exact exists_differs_right a operator arithmeticLeft (ihRight impureRight) n
      | true =>
        have own : (right.continues op = true ∧ op = "*") ∧ right.isPure = false := by
          simpa [hasPureFactors, impureLeft, impureRight] using impure
        obtain ⟨⟨goesOn, rfl⟩, impureRow⟩ := own
        exact exists_differs_product a arithmeticLeft arithmeticRight goesOn impureRow n

end Labelling

end Tree

namespace Cypher

/-- Whether the text of an expression is read as an expression that denotes the same integer wherever
the first one denotes one. -/
def KeepsInteger (t : Tree) : Prop :=
  ∃ text r, t.expressionText = .ok text ∧ read text = some r ∧
    ∀ a v, t.integer? a = some v → r.integer? a = some v

private theorem keepsInteger_iff {t : Tree} (arithmetic : t.Arithmetic) (plain : t.hasPlainNames = true) :
    KeepsInteger t ↔ ∀ a v, t.integer? a = some v → t.reading.integer? a = some v := by
  obtain ⟨text, written, reads⟩ := read_expressionText arithmetic.formed plain
  constructor
  · rintro ⟨otherText, r, otherWritten, otherReads, keeps⟩
    obtain rfl : text = otherText := by simpa [written] using otherWritten
    obtain rfl : t.reading = r := by simpa [reads] using otherReads
    exact keeps
  · exact fun keeps => ⟨text, t.reading, written, reads, keeps⟩

/-- The text of an arithmetic expression keeps its meaning whatever its leaves are exactly if no
product that stands on the right of a product starts with a row of operations that holds a division or
a remainder. -/
theorem keepsInteger_shape_iff {t : Tree} (arithmetic : t.Arithmetic) :
    (∀ u, Tree.SameShape u t → u.hasPlainNames = true → KeepsInteger u) ↔ t.hasPureFactors = true := by
  constructor
  · intro keeps
    by_contra impure
    have zero : Tree.Assignment := ⟨fun _ _ => 0, fun _ => 0⟩
    obtain ⟨u, labels, p, q, value, read, large, _, apart⟩ :=
      Tree.exists_differs zero arithmetic (Bool.eq_false_iff.mpr impure) 1
    have kept := keeps u labels.sameShape labels.hasPlainNames
    rw [keepsInteger_iff (labels.sameShape.arithmetic arithmetic) labels.hasPlainNames] at kept
    have same := kept zero p value
    obtain rfl : q = p := by simpa [read] using same
    omega
  · intro factors u same plain
    have arithmetic' := same.arithmetic arithmetic
    rw [keepsInteger_iff arithmetic' plain]
    intro a v value
    rw [Tree.integer?_reading arithmetic' (same.hasPureFactors_eq.trans factors), value]

private def quotients : Tree :=
  .binary "-"
    (.binary "/" (.binary "*" (.property "n" "x") (.literal (.int 2))) (.parameter "p"))
    (.binary "*" (.binary "%" (.literal (.int 6)) (.property "n" "y")) (.unary "-" (.literal (.int 1))))

theorem keepsInteger_shape_quotients :
    quotients.Arithmetic ∧ ∀ u, Tree.SameShape u quotients → u.hasPlainNames = true → KeepsInteger u := by
  have arithmetic : quotients.Arithmetic :=
    .operation (by decide)
      (.operation (by decide) (.operation (by decide) (.property "n" "x") (.literal 2)) (.parameter "p"))
      (.operation (by decide) (.operation (by decide) (.literal 6) (.property "n" "y"))
        (.negation (.literal 1)))
  have factors : quotients.hasPureFactors = true := by decide
  exact ⟨arithmetic, (keepsInteger_shape_iff arithmetic).mpr factors⟩

private def divided : Tree :=
  .binary "*" (.literal (.int 3))
    (.binary "*" (.binary "/" (.literal (.int 1)) (.literal (.int 2))) (.literal (.int 1)))

theorem not_keepsInteger_divided :
    divided.Arithmetic ∧ divided.hasPlainNames = true ∧
      divided.expressionText = .ok "3 * 1 / 2 * 1" ∧ ¬KeepsInteger divided := by
  have arithmetic : divided.Arithmetic :=
    .operation (by decide) (.literal 3)
      (.operation (by decide) (.operation (by decide) (.literal 1) (.literal 2)) (.literal 1))
  have plain : divided.hasPlainNames = true := by decide
  refine ⟨arithmetic, plain, by rfl, ?_⟩
  rw [keepsInteger_iff arithmetic plain]
  intro keeps
  have zero := keeps ⟨fun _ _ => 0, fun _ => 0⟩ 0 (by decide)
  exact absurd zero (by decide)

end Cypher

end GraphQuery
