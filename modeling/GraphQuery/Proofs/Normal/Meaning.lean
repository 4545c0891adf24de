import GraphQuery.Proofs.Normal.Expression
import GraphQuery.Proofs.Value.Reordering
import Mathlib.Data.Fintype.Option

/-! # The meaning of normal expressions

An interpretation says what literals, properties, parameters, operators and functions mean in some
carrier set. Normal forms are taken with a few laws in mind: `AND` and `OR` are commutative and
associative, `NOT` undoes itself, and the order of the entries of a map means nothing. Under every
interpretation with these laws an expression and its normal form have one value, whatever the other
operators mean.
-/

namespace GraphQuery

universe u

/-- What the parts of an expression mean. -/
structure Interpretation (Carrier : Type u) where
  literal : Value → Carrier
  property : (subject key : String) → Carrier
  parameter : (name : String) → Carrier
  binary : (op : String) → Carrier → Carrier → Carrier
  unary : (op : String) → Carrier → Carrier
  call : (name : String) → List Carrier → Carrier

namespace Interpretation

variable {Carrier : Type u}

/-- The laws that normal forms rely on. -/
structure Lawful (I : Interpretation Carrier) : Prop where
  reordered {v w : Value} : v.Reordered w → I.literal v = I.literal w
  commutative {op : String} : op = "AND" ∨ op = "OR" → ∀ a b, I.binary op a b = I.binary op b a
  associative {op : String} : op = "AND" ∨ op = "OR" →
    ∀ a b c, I.binary op (I.binary op a b) c = I.binary op a (I.binary op b c)
  involutive : ∀ a, I.unary "NOT" (I.unary "NOT" a) = a

variable (I : Interpretation Carrier)

mutual

/-- The value of an expression. What is no expression has none. -/
def eval : Tree → Option Carrier
  | .literal value => some (I.literal value)
  | .property subject key => some (I.property subject key)
  | .parameter name => some (I.parameter name)
  | .binary op left right => (eval left).bind fun a => (eval right).map (I.binary op a)
  | .unary op operand => (eval operand).map (I.unary op)
  | .call name args => (evalAll args).map (I.call name)
  | _ => none

/-- The values of several expressions. -/
def evalAll : List Tree → Option (List Carrier)
  | [] => some []
  | t :: rest => (eval t).bind fun a => (evalAll rest).map (a :: ·)

end

variable {I} {op : String}

theorem eval_binary (op : String) (left right : Tree) :
    I.eval (.binary op left right) =
      (I.eval left).bind fun a => (I.eval right).map (I.binary op a) := rfl

theorem eval_unary (op : String) (operand : Tree) :
    I.eval (.unary op operand) = (I.eval operand).map (I.unary op) := rfl

theorem evalAll_cons (t : Tree) (rest : List Tree) :
    I.evalAll (t :: rest) = (I.eval t).bind fun a => (I.evalAll rest).map (a :: ·) := rfl

private theorem eval_congr_left {left other : Tree} (same : I.eval left = I.eval other)
    (right : Tree) : I.eval (.binary op left right) = I.eval (.binary op other right) := by
  rw [eval_binary, eval_binary, same]

private theorem eval_congr_right {right other : Tree} (same : I.eval right = I.eval other)
    (left : Tree) : I.eval (.binary op left right) = I.eval (.binary op left other) := by
  rw [eval_binary, eval_binary, same]

namespace Lawful

open GraphQuery.Tree

variable (lawful : I.Lawful)
include lawful

private theorem eval_binary_comm (commutes : isCommutative op = true) (left right : Tree) :
    I.eval (.binary op left right) = I.eval (.binary op right left) := by
  have which : op = "AND" ∨ op = "OR" := by simpa [isCommutative] using commutes
  have commutative := lawful.commutative which
  simp only [eval_binary]
  cases I.eval left <;> cases I.eval right <;> simp [commutative]

private theorem eval_binary_assoc (commutes : isCommutative op = true) (first second third : Tree) :
    I.eval (.binary op (.binary op first second) third) =
      I.eval (.binary op first (.binary op second third)) := by
  have which : op = "AND" ∨ op = "OR" := by simpa [isCommutative] using commutes
  have associative := lawful.associative which
  simp only [eval_binary]
  cases I.eval first <;> cases I.eval second <;> cases I.eval third <;> simp [associative]

private theorem eval_chain_append (commutes : isCommutative op = true) {items others : List Tree}
    (atLeastOne : items ≠ []) (more : others ≠ []) :
    I.eval (chain op (items ++ others)) =
      I.eval (.binary op (chain op items) (chain op others)) := by
  induction items with
  | nil => exact absurd rfl atLeastOne
  | cons item rest ih =>
    by_cases last : rest = []
    · subst last
      rw [List.singleton_append, chain_cons more, chain_singleton]
    · calc I.eval (chain op (item :: (rest ++ others)))
          = I.eval (.binary op item (chain op (rest ++ others))) :=
            by rw [chain_cons (by simp [last])]
        _ = I.eval (.binary op item (.binary op (chain op rest) (chain op others))) :=
            eval_congr_right (ih last) item
        _ = I.eval (.binary op (.binary op item (chain op rest)) (chain op others)) :=
            (eval_binary_assoc lawful commutes _ _ _).symm
        _ = I.eval (.binary op (chain op (item :: rest)) (chain op others)) := by
            rw [chain_cons last]

private theorem eval_chain_operands (commutes : isCommutative op = true) (t : Tree) :
    I.eval (chain op (operands op t)) = I.eval t := by
  fun_induction operands op t with
  | case1 left right ihLeft ihRight =>
    rw [eval_chain_append lawful commutes (operands_ne_nil op left) (operands_ne_nil op right),
      eval_binary, eval_binary, ihLeft, ihRight]
  | case2 => rfl
  | case3 => rfl

private theorem eval_chain_perm (commutes : isCommutative op = true) {items others : List Tree}
    (perm : items.Perm others) : I.eval (chain op items) = I.eval (chain op others) := by
  induction perm with
  | nil => rfl
  | @cons t items others perm ih =>
    by_cases last : items = []
    · subst last
      obtain rfl := List.nil_perm.mp perm
      rfl
    · have more : others ≠ [] := fun none => last (List.perm_nil.mp (none ▸ perm))
      rw [chain_cons last, chain_cons more]
      exact eval_congr_right ih t
  | swap t u rest =>
    by_cases last : rest = []
    · subst last
      exact eval_binary_comm lawful commutes u t
    · calc I.eval (chain op (u :: t :: rest))
          = I.eval (.binary op u (.binary op t (chain op rest))) := by
            rw [chain_cons (List.cons_ne_nil _ _), chain_cons last]
        _ = I.eval (.binary op (.binary op u t) (chain op rest)) :=
            (eval_binary_assoc lawful commutes _ _ _).symm
        _ = I.eval (.binary op (.binary op t u) (chain op rest)) :=
            eval_congr_left (eval_binary_comm lawful commutes u t) _
        _ = I.eval (.binary op t (.binary op u (chain op rest))) :=
            eval_binary_assoc lawful commutes _ _ _
        _ = I.eval (chain op (t :: u :: rest)) := by
            rw [chain_cons (List.cons_ne_nil _ _), chain_cons last]
  | trans _ _ first second => exact first.trans second

theorem eval_applyBinary (op : String) (left right : Tree) :
    I.eval (applyBinary op left right) = I.eval (.binary op left right) := by
  cases commutes : isCommutative op with
  | false => rw [applyBinary_of_not_commutative commutes]
  | true =>
    calc I.eval (applyBinary op left right)
        = I.eval (chain op (sortedOperands op left right)) := by
          rw [applyBinary_of_commutative commutes]
      _ = I.eval (chain op (operands op left ++ operands op right)) :=
          eval_chain_perm lawful commutes (sortedOperands_perm op left right)
      _ = I.eval (.binary op (chain op (operands op left)) (chain op (operands op right))) :=
          eval_chain_append lawful commutes (operands_ne_nil op left) (operands_ne_nil op right)
      _ = I.eval (.binary op left right) := by
          rw [eval_binary, eval_binary, eval_chain_operands lawful commutes,
            eval_chain_operands lawful commutes]

theorem eval_applyUnary (op : String) (operand : Tree) :
    I.eval (applyUnary op operand) = I.eval (.unary op operand) := by
  fun_cases applyUnary op operand with
  | case1 inner operand both =>
    obtain ⟨rfl, rfl⟩ : op = "NOT" ∧ inner = "NOT" := by simpa using both
    rw [eval_unary, eval_unary]
    cases I.eval operand <;> simp [lawful.involutive]
  | case2 => rfl
  | case3 => rfl

end Lawful

end Interpretation

namespace Tree

open Interpretation

variable {Carrier : Type u} {I : Interpretation Carrier}

private theorem evalAll_of_forall₂ {args inner : List Tree}
    (same : List.Forall₂ (fun arg result => ∃ v, I.eval arg = some v ∧ I.eval result = some v) args inner) :
    ∃ values, I.evalAll args = some values ∧ I.evalAll inner = some values := by
  induction same with
  | nil => exact ⟨[], rfl, rfl⟩
  | cons first _ ih =>
    obtain ⟨v, ofArg, ofResult⟩ := first
    obtain ⟨values, ofArgs, ofResults⟩ := ih
    refine ⟨v :: values, ?_, ?_⟩
    · rw [evalAll_cons, ofArg, ofArgs]
      rfl
    · rw [evalAll_cons, ofResult, ofResults]
      rfl

/-- An expression that has a normal form has a value under every lawful interpretation, and its
normal form has the same value. -/
theorem eval_normalExpression (lawful : I.Lawful) {t n : Tree} (returned : t.normalExpression = .ok n) :
    ∃ v, I.eval t = some v ∧ I.eval n = some v := by
  refine normalExpression_induction (motive := fun t n => ∃ v, I.eval t = some v ∧ I.eval n = some v)
    ?_ ?_ ?_ ?_ ?_ ?_ t n returned
  · intro value
    exact ⟨_, rfl, congrArg some (lawful.reordered value.reordered_ordered).symm⟩
  · intro subject key
    exact ⟨_, rfl, rfl⟩
  · intro name
    exact ⟨_, rfl, rfl⟩
  · rintro op operand inner - ⟨v, ofOperand, ofInner⟩
    refine ⟨I.unary op v, ?_, ?_⟩
    · rw [eval, ofOperand]
      rfl
    · rw [lawful.eval_applyUnary, eval, ofInner]
      rfl
  · rintro op left right first second - ⟨a, ofLeft, ofFirst⟩ - ⟨b, ofRight, ofSecond⟩
    refine ⟨I.binary op a b, ?_, ?_⟩
    · rw [eval, ofLeft, ofRight]
      rfl
    · rw [lawful.eval_applyBinary, eval, ofFirst, ofSecond]
      rfl
  · intro name args inner same
    obtain ⟨values, ofArgs, ofInner⟩ := evalAll_of_forall₂ (same.imp fun _ _ both => both.2)
    refine ⟨I.call name values, ?_, ?_⟩
    · rw [eval, ofArgs]
      rfl
    · rw [eval, ofInner]
      rfl

end Tree

namespace Interpretation

/-- Three-valued logic under given values of the parameters. What is no truth value is unknown. -/
def threeValued (parameters : String → Option Bool) : Interpretation (Option Bool) where
  literal
    | .bool b => some b
    | _ => none
  property _ _ := none
  parameter := parameters
  binary op a b :=
    if op = "AND" then
      if a = some false ∨ b = some false then some false else a.bind fun _ => b
    else if op = "OR" then
      if a = some true ∨ b = some true then some true else a.bind fun _ => b
    else none
  unary op a := if op = "NOT" then a.map Bool.not else none
  call _ _ := none

theorem lawful_threeValued (parameters : String → Option Bool) : (threeValued parameters).Lawful where
  reordered same := by
    induction same with
    | refl => rfl
    | symm _ ih => exact ih.symm
    | trans _ _ first second => exact first.trans second
    | entries | entry | listItem | tupleItem => rfl
  commutative := by
    rintro op (rfl | rfl)
    · simp only [threeValued, ↓reduceIte]
      decide
    · simp only [threeValued, String.reduceEq, ↓reduceIte]
      decide
  associative := by
    rintro op (rfl | rfl)
    · simp only [threeValued, ↓reduceIte]
      decide
    · simp only [threeValued, String.reduceEq, ↓reduceIte]
      decide
  involutive a := by
    simp only [threeValued, ↓reduceIte, Option.map_map, Function.comp_def, Bool.not_not, Option.map_id']

end Interpretation

namespace Tree

open Interpretation

private theorem canonicalText_parameter_lt :
    ¬canonicalText (.parameter "b") ≤ canonicalText (.parameter "a") := by decide +kernel

private theorem normalExpression_negated_or :
    (Tree.binary "OR" (.unary "NOT" (.unary "NOT" (.parameter "b"))) (.parameter "a")).normalExpression =
      .ok (.binary "OR" (.parameter "a") (.parameter "b")) := by
  simp [normalExpression, applyUnary, applyBinary, isCommutative, operands, sortByText, stableSort,
    insertSorted, canonicalText_parameter_lt, chain, bind, Except.bind]

/-- A double negation and the order of two operands change nothing in three-valued logic. -/
theorem eval_normalExpression_negated_or :
    (threeValued fun _ => none).Lawful ∧
      (Tree.binary "OR" (.unary "NOT" (.unary "NOT" (.parameter "b"))) (.parameter "a")).normalExpression =
        .ok (.binary "OR" (.parameter "a") (.parameter "b")) ∧
      ∃ v, (threeValued fun _ => none).eval
          (.binary "OR" (.unary "NOT" (.unary "NOT" (.parameter "b"))) (.parameter "a")) = some v ∧
        (threeValued fun _ => none).eval (.binary "OR" (.parameter "a") (.parameter "b")) = some v :=
  ⟨lawful_threeValued _, normalExpression_negated_or,
    eval_normalExpression (lawful_threeValued _) normalExpression_negated_or⟩

end Tree

end GraphQuery
