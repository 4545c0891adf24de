import GraphQuery.Proofs.Sorting
import GraphQuery.Query.Normal

/-! # Chains of a commutative operator

Gathering the operands of a chain and chaining them again are inverse to each other as long as no
operand is itself a chain. So the normal form of an operation with a commutative operator has the
sorted operands of both sides as its own, which is what makes the operation associative.
-/

namespace GraphQuery.Tree

theorem operands_ne_nil (op : String) (t : Tree) : operands op t ≠ [] := by
  fun_induction operands op t with
  | case1 left right ihLeft _ => simp [ihLeft]
  | case2 => simp
  | case3 => simp

/-- An operand of a chain is no chain itself. -/
theorem operands_of_mem_operands {op : String} {t item : Tree} (member : item ∈ operands op t) :
    operands op item = [item] := by
  fun_induction operands op t with
  | case1 left right ihLeft ihRight =>
    rcases List.mem_append.mp member with member | member
    · exact ihLeft member
    · exact ihRight member
  | case2 other left right different =>
    obtain rfl := List.mem_singleton.mp member
    simp [operands, different]
  | case3 t notBinary =>
    obtain rfl := List.mem_singleton.mp member
    rw [operands]
    exact notBinary

@[simp] theorem chain_singleton (op : String) (t : Tree) : chain op [t] = t := rfl

theorem chain_cons {op : String} {t : Tree} {rest : List Tree} (more : rest ≠ []) :
    chain op (t :: rest) = .binary op t (chain op rest) := by
  rw [chain]
  exact more

/-- Chaining operands that are no chains themselves loses none of them. -/
theorem operands_chain {op : String} {items : List Tree} (some : items ≠ [])
    (single : ∀ item ∈ items, operands op item = [item]) : operands op (chain op items) = items := by
  induction items with
  | nil => exact absurd rfl some
  | cons item rest ih =>
    have first := single item (List.mem_cons_self ..)
    by_cases last : rest = []
    · rw [last, chain_singleton, first]
    · rw [chain_cons last, operands, if_pos rfl, first,
        ih last fun other member => single other (List.mem_cons_of_mem _ member)]
      rfl

/-- The operands of both sides of an operation, in the order of their texts. -/
def sortedOperands (op : String) (left right : Tree) : List Tree :=
  sortByText canonicalText (operands op left ++ operands op right)

theorem applyBinary_of_commutative {op : String} (commutative : isCommutative op = true)
    (left right : Tree) : applyBinary op left right = chain op (sortedOperands op left right) := by
  rw [applyBinary, if_pos commutative, sortedOperands]

theorem applyBinary_of_not_commutative {op : String} (fixed : isCommutative op = false)
    (left right : Tree) : applyBinary op left right = .binary op left right := by
  rw [applyBinary, fixed, if_neg Bool.false_ne_true]

theorem operands_eq_singleton {op : String} {t : Tree} (one : (operands op t).length = 1) :
    operands op t = [t] := by
  cases t with
  | binary other left right =>
    rw [operands] at one ⊢
    split at one
    · -- Both sides have an operand, so a chain has more than one.
      have ofLeft := List.length_pos_iff.mpr (operands_ne_nil op left)
      have ofRight := List.length_pos_iff.mpr (operands_ne_nil op right)
      rw [List.length_append] at one
      omega
    · exact if_neg ‹_›
  | _ => rfl

/-- Two operands that are no chains change places if their texts ask for it. -/
theorem applyBinary_of_two {op : String} (commutative : isCommutative op = true) {left right : Tree}
    (two : (operands op left ++ operands op right).length ≤ 2) :
    applyBinary op left right =
      if canonicalText right < canonicalText left then .binary op right left else .binary op left right := by
  rw [List.length_append] at two
  have ofLeft := List.length_pos_iff.mpr (operands_ne_nil op left)
  have ofRight := List.length_pos_iff.mpr (operands_ne_nil op right)
  have sorted : sortedOperands op left right =
      if canonicalText left ≤ canonicalText right then [left, right] else [right, left] := by
    rw [sortedOperands, operands_eq_singleton (t := left) (by omega),
      operands_eq_singleton (t := right) (by omega)]
    simp [sortByText, stableSort, insertSorted]
  rw [applyBinary_of_commutative commutative, sorted]
  by_cases swapped : canonicalText right < canonicalText left
  · rw [if_pos swapped, if_neg (String.not_le.mpr swapped)]
    rfl
  · rw [if_neg swapped, if_pos (String.not_lt.mp swapped)]
    rfl

theorem sortedOperands_perm (op : String) (left right : Tree) :
    (sortedOperands op left right).Perm (operands op left ++ operands op right) := by
  rw [sortedOperands, sortByText_eq_sortByKey]
  exact sortByKey_perm _ _

theorem sortedOperands_ne_nil (op : String) (left right : Tree) :
    sortedOperands op left right ≠ [] := by
  intro none
  have perm := sortedOperands_perm op left right
  rw [none, List.nil_perm, List.append_eq_nil_iff] at perm
  exact operands_ne_nil op left perm.1

theorem mem_sortedOperands {op : String} {left right item : Tree} :
    item ∈ sortedOperands op left right ↔ item ∈ operands op left ∨ item ∈ operands op right := by
  rw [(sortedOperands_perm op left right).mem_iff, List.mem_append]

theorem operands_of_mem_sortedOperands {op : String} {left right item : Tree}
    (member : item ∈ sortedOperands op left right) : operands op item = [item] := by
  rcases mem_sortedOperands.mp member with member | member
  · exact operands_of_mem_operands member
  · exact operands_of_mem_operands member

/-- The normal form of an operation has the sorted operands of both sides as its own. -/
theorem operands_applyBinary {op : String} (commutative : isCommutative op = true)
    (left right : Tree) : operands op (applyBinary op left right) = sortedOperands op left right := by
  rw [applyBinary_of_commutative commutative]
  exact operands_chain (sortedOperands_ne_nil op left right)
    fun _ member => operands_of_mem_sortedOperands member

/-! ## What holds of all operands -/

section Operands

variable {P : Tree → Prop} {op : String}

theorem forall_mem_operands (split : ∀ left right, P (.binary op left right) → P left ∧ P right)
    {t : Tree} (holds : P t) : ∀ item ∈ operands op t, P item := by
  fun_induction operands op t with
  | case1 left right ihLeft ihRight =>
    obtain ⟨ofLeft, ofRight⟩ := split left right holds
    exact List.forall_mem_append.mpr ⟨ihLeft ofLeft, ihRight ofRight⟩
  | case2 => simpa using holds
  | case3 => simpa using holds

theorem chain_induction (join : ∀ left right, P left → P right → P (.binary op left right))
    {items : List Tree} (some : items ≠ []) (all : ∀ item ∈ items, P item) : P (chain op items) := by
  induction items with
  | nil => exact absurd rfl some
  | cons item rest ih =>
    obtain ⟨first, others⟩ := List.forall_mem_cons.mp all
    by_cases last : rest = []
    · rw [last, chain_singleton]
      exact first
    · rw [chain_cons last]
      exact join item _ first (ih last others)

/-- What a chain has together with its operands is kept by applying an operator. -/
theorem applyBinary_induction (split : ∀ left right, P (.binary op left right) → P left ∧ P right)
    (join : ∀ left right, P left → P right → P (.binary op left right)) {left right : Tree}
    (ofLeft : P left) (ofRight : P right) : P (applyBinary op left right) := by
  cases commutes : isCommutative op with
  | false =>
    rw [applyBinary_of_not_commutative commutes]
    exact join left right ofLeft ofRight
  | true =>
    rw [applyBinary_of_commutative commutes]
    refine chain_induction join (sortedOperands_ne_nil op left right) fun item member => ?_
    rcases mem_sortedOperands.mp member with member | member
    · exact forall_mem_operands split ofLeft item member
    · exact forall_mem_operands split ofRight item member

/-- What an operation has together with its operand is kept by applying an operator. -/
theorem applyUnary_induction (split : ∀ operand, P (.unary "NOT" operand) → P operand)
    (join : ∀ operand, P operand → P (.unary op operand)) {operand : Tree} (holds : P operand) :
    P (applyUnary op operand) := by
  fun_cases applyUnary op operand with
  | case1 inner operand both =>
    obtain ⟨-, rfl⟩ : op = "NOT" ∧ inner = "NOT" := by simpa using both
    exact split operand holds
  | case2 => exact join _ holds
  | case3 => exact join _ holds

end Operands

/-! ## Chains have at least two operands -/

theorem exists_applyBinary_eq_binary (op : String) (left right : Tree) :
    ∃ first second, applyBinary op left right = .binary op first second := by
  cases commutes : isCommutative op with
  | false => exact ⟨left, right, applyBinary_of_not_commutative commutes left right⟩
  | true =>
    have length := (sortedOperands_perm op left right).length_eq
    have leftSome := List.length_pos_of_ne_nil (operands_ne_nil op left)
    have rightSome := List.length_pos_of_ne_nil (operands_ne_nil op right)
    rw [List.length_append] at length
    rw [applyBinary_of_commutative commutes]
    match sortedOperands op left right, length with
    | first :: second :: rest, _ => exact ⟨first, _, chain_cons (by simp)⟩
    | [_], length => simp at length; omega
    | [], length => simp at length; omega

end GraphQuery.Tree
