import GraphQuery.Proofs.Cypher.Value
import GraphQuery.Proofs.Syntax.WellFormed
import GraphQuery.Query.Text

/-! # What the text of an expression is read as

The text of an expression is read as the tree `Tree.reading`. It differs from the expression in two
ways. A negative number is read as a negation. An operand on the right that is written bare because
it continues a chain is read from the left, so that all of its operations are regrouped: what stands
on its left is grafted onto the first operand of the operations of its level.
-/

namespace GraphQuery

namespace Tree

mutual

def hasPlainNames : Tree → Bool
  | .literal value => value.hasPlainKeys
  | .property subject key => Cypher.isPlainName subject && Cypher.isPlainName key
  | .parameter name => Cypher.isPlainName name
  | .binary _ left right => hasPlainNames left && hasPlainNames right
  | .unary _ operand => hasPlainNames operand
  | .call name args => Cypher.isPlainName name && havePlainNames args
  | _ => true

/-- Whether names in several expressions are read as names. -/
def havePlainNames : List Tree → Bool
  | [] => true
  | t :: rest => hasPlainNames t && havePlainNames rest

end

theorem havePlainNames_eq_all (items : List Tree) : havePlainNames items = items.all hasPlainNames := by
  induction items with
  | nil => rfl
  | cons item rest ih => rw [havePlainNames, ih, List.all_cons]

/-! ## Regrouping -/

/-- Makes something of the first operand in a row of operations of a level. -/
def graft (k : Nat) (make : Tree → Tree) : Tree → Tree
  | .binary op left right =>
    if binaryLevel? op = some k then .binary op (graft k make left) right else make (.binary op left right)
  | t => make t

@[simp] theorem graft_id (k : Nat) (t : Tree) : graft k id t = t := by
  fun_induction graft k id t with
  | case1 op left right _ ih => rw [ih]
  | case2 => rfl
  | case3 => rfl

section Graft

variable {k : Nat} {op : String}

theorem graft_binary (known : binaryLevel? op = some k) (make : Tree → Tree) (left right : Tree) :
    graft k make (.binary op left right) = .binary op (graft k make left) right := by
  rw [graft, if_pos known]

/-- Other levels start no row of operations of a level. -/
theorem graft_of_level_ne {t : Tree} (other : t.level ≠ k) (make : Tree → Tree) :
    graft k make t = make t := by
  cases t with
  | binary op left right =>
    have unequal : binaryLevel? op ≠ some k := by
      intro known
      exact other (by rw [level, known]; rfl)
    rw [graft, if_neg unequal]
  | _ => rfl

theorem graft_graft (known : binaryLevel? op = some k) (make : Tree → Tree) (left t : Tree) :
    graft k make (graft k (.binary op left) t) = graft k (.binary op (graft k make left)) t := by
  fun_induction graft k (.binary op left) t with
  | case1 other first second same ih => rw [graft_binary same, graft_binary same, ih]
  | case2 other first second unequal => rw [graft_binary known, graft, if_neg unequal]
  | case3 t unlike =>
    rw [graft_binary known, graft.eq_2 _ _ _ unlike]

theorem level_graft {make : Tree → Tree} (made : ∀ t, (make t).level = k) (t : Tree) :
    (graft k make t).level = k := by
  cases t with
  | binary op left right =>
    rw [graft]
    split
    · rename_i known
      rw [level, known]
      rfl
    · exact made _
  | _ => exact made _

end Graft

mutual

/-- The tree that the text of an expression is read as. -/
def reading : Tree → Tree
  | .literal value =>
    match value.magnitude? with
    | some magnitude => .unary "-" (.literal magnitude)
    | none => .literal value
  | .binary op left right =>
    if right.continues op then graft right.level (.binary op (reading left)) (reading right)
    else .binary op (reading left) (reading right)
  | .unary op operand => .unary op (reading operand)
  | .call name args => .call name (readings args)
  | t => t

/-- The trees that the texts of several expressions are read as. -/
def readings : List Tree → List Tree
  | [] => []
  | t :: rest => reading t :: readings rest

end

theorem readings_eq_map (items : List Tree) : readings items = items.map reading := by
  induction items with
  | nil => rfl
  | cons item rest ih => rw [readings, ih, List.map_cons]

theorem level_of_continues {op : String} {k : Nat} (known : binaryLevel? op = some k) {t : Tree}
    (goesOn : t.continues op = true) : t.level = k := by
  cases t with
  | binary other left right =>
    simp only [continues, Bool.and_eq_true, decide_eq_true_eq] at goesOn
    rw [level, goesOn.1, known]
    rfl
  | _ => simp [continues] at goesOn

/-! ## Levels -/

theorem level_binary {op : String} {k : Nat} (known : binaryLevel? op = some k) (left right : Tree) :
    (binary op left right).level = k := by
  rw [level, known]
  rfl

theorem level_unary {op : String} {k : Nat} (known : unaryLevel? op = some k) (operand : Tree) :
    (unary op operand).level = k := by
  rw [level, known]
  rfl

theorem FormedExpression.level_pos {t : Tree} (formed : t.FormedExpression) : 0 < t.level := by
  cases formed with
  | literal | property | parameter | call =>
    have positive : 0 < atomLevel := by decide
    exact positive
  | @binary op k _ _ known _ _ =>
    have table : ∀ entry ∈ binaryLevels, 0 < entry.2 := by decide
    rw [level_binary known]
    exact table _ (Cypher.mem_of_lookup known)
  | @unary op k _ known _ =>
    have table : ∀ entry ∈ unaryLevels, 0 < entry.2 := by decide
    rw [level_unary known]
    exact table _ (Cypher.mem_of_lookup known)

theorem level_reading_binary {op : String} {k : Nat} (known : binaryLevel? op = some k) (left right : Tree) :
    (binary op left right).reading.level = k := by
  rw [reading]
  split
  · rename_i goesOn
    rw [level_of_continues known goesOn]
    exact level_graft (level_binary known _) _
  · exact level_binary known _ _

/-- An operation keeps its level when it is read, and what is tighter stays tighter. -/
theorem level_of_level_reading {t : Tree} {k : Nat} (formed : t.FormedExpression) (loose : k < 8)
    (same : t.reading.level = k) : t.level = k := by
  cases formed with
  | @literal value _ =>
    rw [reading] at same
    split at same
    · rename_i magnitude _
      have eight : (unary "-" (literal magnitude)).level = 8 := rfl
      omega
    · exact same
  | property | parameter => exact same
  | @binary op level left right known _ _ =>
    rw [level_binary known]
    rwa [level_reading_binary known] at same
  | unary => exact same
  | call => exact same

/-! ## Parentheses -/

section Enclosed

variable {op : String} {k : Nat} {t : Tree}

theorem le_level_of_bare (bare : isEnclosed op k false t = false) : k ≤ t.level := by
  unfold isEnclosed at bare
  split at bare
  · omega
  · split at bare
    · simp at bare
    · omega

theorem lt_level_or_continues_of_bare (bare : isEnclosed op k true t = false) :
    k < t.level ∨ t.continues op = true := by
  unfold isEnclosed at bare
  split at bare
  · left
    assumption
  · split at bare
    · simp at bare
    · right
      simpa using bare

theorem not_continues_of_separate (separate : isAssociative op = false) : t.continues op = false := by
  cases t <;> simp [continues, separate]

theorem isAssociative_of_continues (goesOn : t.continues op = true) : isAssociative op = true := by
  by_contra separate
  rw [not_continues_of_separate (Bool.eq_false_iff.mpr separate)] at goesOn
  exact Bool.false_ne_true goesOn

/-- An operand of an operator that is not grouped at all is written bare only if it is tighter. -/
theorem lt_level_of_bare (isRight : Bool) (separate : isAssociative op = false)
    (ungrouped : groupsLeft k = false) (bare : isEnclosed op k isRight t = false) : k < t.level := by
  unfold isEnclosed at bare
  split at bare
  · assumption
  · split at bare
    · simp at bare
    · simp [not_continues_of_separate separate, ungrouped] at bare

/-- An operand on the left is written bare at a level of operators that are grouped from the left. -/
theorem level_lt_of_enclosed (formed : t.FormedExpression) (known : binaryLevel? op = some k)
    (chain : Cypher.isChainLevel k = true) (enclosed : isEnclosed op k false t = true) : t.level < k := by
  have table : ∀ entry ∈ binaryLevels, ∀ other ∈ binaryLevels, entry.2 = other.2 →
      Cypher.isChainLevel entry.2 = true →
      groupsLeft entry.2 = true ∨ entry.1 = other.1 ∧ isAssociative entry.1 = true := by decide
  have loose : ∀ entry ∈ unaryLevels, Cypher.isChainLevel entry.2 = false := by decide
  unfold isEnclosed at enclosed
  split at enclosed
  · simp at enclosed
  · split at enclosed
    · assumption
    · have same : t.level = k := by omega
      exfalso
      cases formed with
      | literal | property | parameter | call =>
        obtain rfl : atomLevel = k := same
        exact absurd chain (by decide)
      | @binary other level left right otherKnown _ _ =>
        obtain rfl : level = k := (level_binary otherKnown left right).symm.trans same
        have row := table _ (Cypher.mem_of_lookup otherKnown) _ (Cypher.mem_of_lookup known) rfl chain
        rcases row with grouped | ⟨rfl, associative⟩
        · simp [grouped] at enclosed
        · simp [continues, associative] at enclosed
      | @unary other level operand otherKnown _ =>
        obtain rfl : level = k := (level_unary otherKnown operand).symm.trans same
        have unchained := loose _ (Cypher.mem_of_lookup otherKnown)
        simp [chain] at unchained

end Enclosed

end Tree

end GraphQuery
