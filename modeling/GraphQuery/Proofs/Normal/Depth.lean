import GraphQuery.Proofs.Normal.Fixpoint
import GraphQuery.Proofs.Syntax.WellFormed

/-! # Normal forms at every depth

`Tree.IsNormal` follows the way in which an expression is built. `Tree.LooksNormal` speaks of all that
occurs in an expression instead: no negation of a negation, no chain on the left of a chain, no operands
of a chain and no keys of a map that are out of order. The expressions of which this holds are exactly
those that are their own normal forms, and it holds of the normal form of every expression.
-/

namespace GraphQuery

namespace Value

/-- Whether keys are in the order of their texts. -/
def AreInOrder (keys : List Value) : Prop :=
  (keys.map asText).Pairwise (· ≤ ·)

private theorem map_ordered_eq_self_iff {items : List Value} :
    items.map ordered = items ↔ ∀ item ∈ items, item.ordered = item := by
  conv_lhs => rhs; rw [← List.map_id items]
  exact List.map_inj_left

private theorem ordered_map_eq_self_iff {entries : List (Value × Value)} :
    ordered (.map entries) = .map entries ↔
      AreInOrder (entries.map Prod.fst) ∧ ∀ entry ∈ entries, entry.2.ordered = entry.2 := by
  rw [ordered_map, map.injEq, AreInOrder, List.pairwise_map, List.pairwise_map]
  constructor
  · intro kept
    have sorted := pairwise_sortByKey (fun entry => entry.1.asText)
      (entries.map fun entry => (entry.1, entry.2.ordered))
    rw [kept] at sorted
    refine ⟨sorted, fun entry member => ?_⟩
    -- What is left alone is the result of ordering, and so are its items.
    rw [← kept, (sortByKey_perm _ _).mem_iff, List.mem_map] at member
    obtain ⟨original, -, rfl⟩ := member
    exact original.2.ordered_ordered
  · rintro ⟨sorted, items⟩
    have same : (entries.map fun entry => (entry.1, entry.2.ordered)) = entries := by
      conv_rhs => rw [← List.map_id entries]
      exact List.map_congr_left fun entry member => Prod.ext rfl (items entry member)
    rw [same, sortByKey_eq_self sorted]

/-- Ordering leaves a value alone exactly if the keys of all maps in it are in order. -/
theorem ordered_eq_self_iff {v : Value} : v.ordered = v ↔ v.AllKeys AreInOrder := by
  induction v using induction_parts with
  | step v ih =>
    rw [allKeys_iff, ← forall₂_congr ih]
    cases v with
    | map entries => rw [ordered_map_eq_self_iff, keys, parts, List.forall_mem_map]
    | list items | tuple items =>
      simp only [ordered, orderedItems_eq_map, list.injEq, tuple.injEq, map_ordered_eq_self_iff, keys, parts,
        AreInOrder, List.map_nil, List.Pairwise.nil, true_and]
    | _ => simp [ordered, keys, parts, AreInOrder]

end Value

namespace Tree

/-- Whether a tree occurs in an expression: as the expression itself or within one of its operands. -/
inductive OccursIn (t : Tree) : Tree → Prop where
  | self : OccursIn t t
  | operand {op : String} {operand : Tree} : OccursIn t operand → OccursIn t (.unary op operand)
  | left {op : String} {left right : Tree} : OccursIn t left → OccursIn t (.binary op left right)
  | right {op : String} {left right : Tree} : OccursIn t right → OccursIn t (.binary op left right)
  | arg {name : String} {args : List Tree} {arg : Tree} :
    arg ∈ args → OccursIn t arg → OccursIn t (.call name args)

/-- The operands of an operator along the right operands, down to the first one that is no operation of
the operator. -/
def rightwards (op : String) : Tree → List Tree
  | .binary other left right =>
    if other = op then left :: rightwards op right else [.binary other left right]
  | t => [t]

/-- Whether all that occurs in an expression is an expression. -/
def OnlyExpressions (e : Tree) : Prop :=
  ∀ t, OccursIn t e → t.isExpression = true

/-- Whether no left operand of an operator is an operation of the same operator. -/
def HasNoLeftChain (op : String) (e : Tree) : Prop :=
  ∀ first second right, ¬OccursIn (.binary op (.binary op first second) right) e

/-- What can be seen of a normal expression, at any depth. -/
structure LooksNormal (e : Tree) : Prop where
  noDoubleNegation : ∀ operand, ¬OccursIn (.unary "NOT" (.unary "NOT" operand)) e
  noLeftChain : ∀ op ∈ ["AND", "OR"], HasNoLeftChain op e
  operandsInOrder : ∀ op ∈ ["AND", "OR"], ∀ t, OccursIn t e →
    (rightwards op t).Pairwise fun a b => a.canonicalText ≤ b.canonicalText
  keysInOrder : ∀ value, OccursIn (.literal value) e → value.AllKeys Value.AreInOrder

section Depth

variable {op : String} {e t : Tree}

theorem mem_commutative_iff : op ∈ ["AND", "OR"] ↔ isCommutative op = true := by
  simp [isCommutative]

theorem OccursIn.trans {inner : Tree} (first : OccursIn inner t) (second : OccursIn t e) :
    OccursIn inner e := by
  induction second with
  | self => exact first
  | operand _ ih => exact .operand ih
  | left _ ih => exact .left ih
  | right _ ih => exact .right ih
  | arg member _ ih => exact .arg member ih

theorem OnlyExpressions.of_occursIn (only : e.OnlyExpressions) (occurs : OccursIn t e) : t.OnlyExpressions :=
  fun inner within => only inner (within.trans occurs)

theorem HasNoLeftChain.of_occursIn (noChain : HasNoLeftChain op e) (occurs : OccursIn t e) :
    HasNoLeftChain op t :=
  fun first second right within => noChain first second right (within.trans occurs)

/-- What looks normal does so in each of its operands. -/
theorem LooksNormal.of_occursIn (looks : e.LooksNormal) (occurs : OccursIn t e) : t.LooksNormal where
  noDoubleNegation operand within := looks.noDoubleNegation operand (within.trans occurs)
  noLeftChain op commutes := (looks.noLeftChain op commutes).of_occursIn occurs
  operandsInOrder op commutes other within := looks.operandsInOrder op commutes other (within.trans occurs)
  keysInOrder value within := looks.keysInOrder value (within.trans occurs)

/-! ## Normal expressions look normal -/

theorem IsNormal.of_occursIn (normal : e.IsNormal) (occurs : OccursIn t e) : t.IsNormal := by
  induction occurs with
  | self => exact normal
  | operand _ ih => cases normal with | unary _ operand => exact ih operand
  | left _ ih => cases normal with | binary _ left _ => exact ih left
  | right _ ih => cases normal with | binary _ _ right => exact ih right
  | arg member _ ih => cases normal with | call _ args => exact ih (args _ member)

/-- A left operand that is no chain has only itself as an operand. -/
theorem HasNoLeftChain.operands_left {left right : Tree} (noChain : HasNoLeftChain op (.binary op left right)) :
    operands op left = [left] := by
  fun_cases operands op left with
  | case1 first second => exact absurd .self (noChain first second right)
  | case2 | case3 => rfl

/-- The operands of a chain all lie along the right operands if no left operand is a chain. -/
theorem HasNoLeftChain.rightwards_eq (noChain : HasNoLeftChain op t) : rightwards op t = operands op t := by
  fun_induction rightwards op t with
  | case1 left right ih =>
    rw [operands, if_pos rfl, noChain.operands_left, ih (noChain.of_occursIn (.right .self))]
    rfl
  | case2 other left right different => rw [operands, if_neg different]
  | case3 t notBinary =>
    rw [operands]
    exact notBinary

theorem IsNormal.hasNoLeftChain (normal : e.IsNormal) (commutes : isCommutative op = true) :
    HasNoLeftChain op e := by
  intro first second right occurs
  cases normal.of_occursIn occurs with
  | binary leans =>
    have single := (leans commutes).1
    rw [operands, if_pos rfl] at single
    -- Both sides of the chain on the left have operands, so it has two at least.
    have length := congrArg List.length single
    have leftSome := List.length_pos_of_ne_nil (operands_ne_nil op first)
    have rightSome := List.length_pos_of_ne_nil (operands_ne_nil op second)
    rw [List.length_append, List.length_singleton] at length
    omega

theorem IsNormal.pairwise_operands (normal : t.IsNormal) (commutes : isCommutative op = true) :
    (operands op t).Pairwise fun a b => a.canonicalText ≤ b.canonicalText := by
  fun_cases operands op t with
  | case1 left right =>
    cases normal with
    | binary leans =>
      obtain ⟨single, sorted⟩ := leans commutes
      rwa [single, List.singleton_append]
  | case2 | case3 => exact List.pairwise_singleton _ _

theorem IsNormal.looksNormal (normal : e.IsNormal) : e.LooksNormal where
  noDoubleNegation operand occurs := by
    cases normal.of_occursIn occurs with
    | unary single => exact single rfl operand rfl
  noLeftChain op commutes := normal.hasNoLeftChain (mem_commutative_iff.mp commutes)
  operandsInOrder op commutes t occurs := by
    have normalHere := normal.of_occursIn occurs
    rw [(normalHere.hasNoLeftChain (mem_commutative_iff.mp commutes)).rightwards_eq]
    exact normalHere.pairwise_operands (mem_commutative_iff.mp commutes)
  keysInOrder value occurs := by
    cases normal.of_occursIn occurs with
    | literal ordered => exact Value.ordered_eq_self_iff.mp ordered

/-! ## What looks normal is normal -/

theorem LooksNormal.isNormal {e : Tree} (looks : e.LooksNormal) (only : e.OnlyExpressions) : e.IsNormal := by
  -- Both are inherited by what occurs in the expression, so each operand is normal.
  have inner {t : Tree} (occurs : OccursIn t e) : t.LooksNormal ∧ t.OnlyExpressions :=
    ⟨looks.of_occursIn occurs, only.of_occursIn occurs⟩
  cases e with
  | literal value => exact .literal (Value.ordered_eq_self_iff.mpr (looks.keysInOrder value .self))
  | property subject key => exact .property subject key
  | parameter name => exact .parameter name
  | unary op operand =>
    have within := inner (.operand .self)
    refine .unary ?_ (LooksNormal.isNormal within.1 within.2)
    rintro rfl negated rfl
    exact looks.noDoubleNegation negated .self
  | binary op left right =>
    have onLeft := inner (.left .self)
    have onRight := inner (.right .self)
    refine .binary (fun commutes => ?_) (LooksNormal.isNormal onLeft.1 onLeft.2)
      (LooksNormal.isNormal onRight.1 onRight.2)
    have known := mem_commutative_iff.mpr commutes
    have sorted := looks.operandsInOrder op known _ .self
    rw [rightwards, if_pos rfl, (onRight.1.noLeftChain op known).rightwards_eq] at sorted
    exact ⟨(looks.noLeftChain op known).operands_left, sorted⟩
  | call name args =>
    refine .call name fun arg member => ?_
    have within := inner (.arg member .self)
    exact LooksNormal.isNormal within.1 within.2
  | _ => exact absurd (only _ .self) Bool.false_ne_true
termination_by sizeOf e

/-- What consists of expressions has a normal form. -/
theorem OnlyExpressions.exists_normalExpression {e : Tree} (only : e.OnlyExpressions) :
    ∃ n, e.normalExpression = .ok n := by
  cases e with
  | literal | property | parameter => exact ⟨_, rfl⟩
  | unary op operand =>
    obtain ⟨inner, ran⟩ := exists_normalExpression (only.of_occursIn (.operand .self))
    exact ⟨_, normalExpression_unary_eq_ok.mpr ⟨inner, ran, rfl⟩⟩
  | binary op left right =>
    obtain ⟨first, ranLeft⟩ := exists_normalExpression (only.of_occursIn (.left .self))
    obtain ⟨second, ranRight⟩ := exists_normalExpression (only.of_occursIn (.right .self))
    exact ⟨_, normalExpression_binary_eq_ok.mpr ⟨first, second, ranLeft, ranRight, rfl⟩⟩
  | call name args =>
    obtain ⟨inner, ran⟩ := exists_mapM_eq_ok fun arg member =>
      exists_normalExpression (only.of_occursIn (.arg member .self))
    exact ⟨_, normalExpression_call_eq_ok.mpr ⟨inner, mapM_eq_ok_iff.mp ran, rfl⟩⟩
  | _ => exact absurd (only _ .self) Bool.false_ne_true
termination_by sizeOf e

/-- Every expression has a normal form, which looks normal, and is its own normal form exactly if it looks
normal itself. -/
theorem normalExpression_eq_self_iff (only : e.OnlyExpressions) :
    ∃ n, e.normalExpression = .ok n ∧ n.LooksNormal ∧ (n = e ↔ e.LooksNormal) := by
  obtain ⟨n, ran⟩ := only.exists_normalExpression
  have looks := (isNormal_of_normalExpression ran).looksNormal
  refine ⟨n, ran, looks, fun same => same ▸ looks, fun normal => ?_⟩
  have kept := (normal.isNormal only).normalExpression_eq
  exact Except.ok.inj (ran.symm.trans kept)

/-- Well-formed expressions consist of expressions. -/
theorem FormedExpression.onlyExpressions (formed : e.FormedExpression) : e.OnlyExpressions := by
  intro t occurs
  induction occurs with
  | self => exact (formedExpression_iff.mp formed).1
  | operand _ ih => cases formed with | unary _ operand => exact ih operand
  | left _ ih => cases formed with | binary _ left _ => exact ih left
  | right _ ih => cases formed with | binary _ _ right => exact ih right
  | arg member _ ih => cases formed with | call _ args => exact ih (args _ member)

end Depth

/-- A chain that leans to the left, with a double negation, and with operands and keys out of order. -/
def untidy : Tree :=
  .binary "AND" (.binary "AND" (.parameter "b") (.unary "NOT" (.unary "NOT" (.parameter "a"))))
    (.literal (.object [("y", .int 2), ("x", .int 1)]))

/-- The normal form of `untidy`. -/
def tidied : Tree :=
  .binary "AND" (.literal (.object [("x", .int 1), ("y", .int 2)]))
    (.binary "AND" (.parameter "a") (.parameter "b"))

theorem normalExpression_eq_self_iff_untidy : untidy.OnlyExpressions ∧
    untidy.normalExpression = .ok tidied ∧ tidied.LooksNormal ∧ ¬untidy.LooksNormal := by
  have formed : untidy.FormedExpression := formedExpression_iff.mpr (by decide +kernel)
  obtain ⟨n, ran, looks, fixed⟩ := normalExpression_eq_self_iff formed.onlyExpressions
  have returned : untidy.normalExpression = .ok tidied := by rfl
  obtain rfl : tidied = n := Except.ok.inj (returned.symm.trans ran)
  have changed : tidied ≠ untidy := by
    rw [tidied, untidy]
    simp
  exact ⟨formed.onlyExpressions, returned, looks, mt fixed.mpr changed⟩

end Tree

end GraphQuery
