import GraphQuery.Proofs.Cypher.Expression
import GraphQuery.Proofs.Syntax.Congruence

/-! # Written expressions read back

Reading gives an expression back up to the grouping of chains of one connective and up to the
difference between a negative number and the negation of its absolute value. It takes one condition:
a sum must not stand on the right of a sum, nor a product on the right of a product. Such an operand
is written without parentheses and read in another grouping, which does matter there.
-/

namespace GraphQuery

namespace Tree

/-- Whether a tree is an operation with the given operator. -/
def isOperation (op : String) : Tree → Bool
  | .binary other _ _ => other = op
  | _ => false

mutual

/-- Whether no sum stands on the right of a sum, and no product on the right of a product. -/
def isUnchained : Tree → Bool
  | .binary op left right =>
    !((op = "+" || op = "*") && right.isOperation op) && isUnchained left && isUnchained right
  | .unary _ operand => isUnchained operand
  | .call _ args => areUnchained args
  | _ => true

/-- Whether the same holds for several expressions. -/
def areUnchained : List Tree → Bool
  | [] => true
  | t :: rest => isUnchained t && areUnchained rest

end

theorem areUnchained_eq_all (items : List Tree) : areUnchained items = items.all isUnchained := by
  induction items with
  | nil => rfl
  | cons item rest ih => rw [areUnchained, ih, List.all_cons]

/-- The differences that reading may make. -/
inductive Regrouped : Tree → Tree → Prop where
  | chain {op : String} (first second third : Tree) : op ∈ ["AND", "OR", "XOR"] →
    Regrouped (.binary op (.binary op first second) third) (.binary op first (.binary op second third))
  | negative {value magnitude : Value} : value.magnitude? = some magnitude →
    Regrouped (.literal value) (.unary "-" (.literal magnitude))

private theorem congruent_graft {op : String} {k : Nat} (known : binaryLevel? op = some k)
    (connective : op ∈ ["AND", "OR", "XOR"]) (left t : Tree) :
    Congruent Regrouped (graft k (.binary op left) t) (.binary op left t) := by
  have table : ∀ entry ∈ binaryLevels, ∀ other ∈ binaryLevels, entry.1 ∈ ["AND", "OR", "XOR"] →
      entry.2 = other.2 → entry.1 = other.1 := by decide
  fun_induction graft k (.binary op left) t with
  | case1 other first second same ih =>
    obtain rfl : op = other :=
      table _ (Cypher.mem_of_lookup known) _ (Cypher.mem_of_lookup same) connective rfl
    have inner := Congruent.inside (.binaryLeft op second) ih
    exact inner.trans (.rule (.chain left first second connective))
  | case2 => exact .refl _
  | case3 => exact .refl _

/-- What an expression is read as differs from it only in ways that reading may make. -/
theorem congruent_reading {t : Tree} (formed : t.FormedExpression) (unchained : t.isUnchained = true) :
    Congruent Regrouped t.reading t := by
  induction formed with
  | @literal value _ =>
    rw [reading]
    cases magnitude : value.magnitude? with
    | none => exact .refl _
    | some absolute => exact (Congruent.rule (.negative magnitude)).symm
  | property | parameter => exact .refl _
  | @binary op k left right known _ _ ihLeft ihRight =>
    simp only [isUnchained, Bool.and_eq_true, Bool.not_eq_true'] at unchained
    obtain ⟨⟨noChain, left'⟩, right'⟩ := unchained
    have operands : Congruent Regrouped (.binary op left.reading right.reading) (.binary op left right) :=
      (Congruent.inside (.binaryLeft op right.reading) (ihLeft left')).trans
        (Congruent.inside (.binaryRight op left) (ihRight right'))
    rw [reading]
    split
    · rename_i goesOn
      have connective : op ∈ ["AND", "OR", "XOR"] := by
        cases right with
        | binary other first second =>
          simp only [continues, isOperation, Bool.and_eq_true, decide_eq_true_eq] at goesOn noChain
          simp only [isAssociative, goesOn.1, decide_true, Bool.and_true, Bool.or_eq_false_iff,
            decide_eq_false_iff_not] at goesOn noChain
          simpa [noChain, or_assoc] using goesOn.2
        | _ => simp [continues] at goesOn
      rw [level_of_continues known goesOn]
      exact (congruent_graft known connective _ _).trans operands
    · exact operands
  | unary _ _ ih => exact .inside (.unary _) (ih unchained)
  | @call name args _ ih =>
    simp only [isUnchained, areUnchained_eq_all, List.all_eq_true] at unchained
    rw [reading, readings_eq_map]
    refine Congruent.of_items (.call name) (.call name) (fun _ _ _ => rfl) ?_
    rw [List.forall₂_map_left_iff, List.forall₂_same]
    exact fun arg member => ih arg member (unchained arg member)

end Tree

/-- The text of a well-formed expression with plain names, in which no sum stands on the right of a
sum and no product on the right of a product, is read to its end, and what is read differs from the
expression only in the grouping of connectives and the sign of negative numbers. -/
theorem Cypher.exists_read_congruent {t : Tree} (expression : t.isExpression = true)
    (formed : t.wellFormed = true) (plain : t.hasPlainNames = true) (unchained : t.isUnchained = true) :
    ∃ text r, t.expressionText = .ok text ∧ read text = some r ∧
      Tree.Congruent Tree.Regrouped r t := by
  have shape := Tree.formedExpression_iff.mpr ⟨expression, formed⟩
  obtain ⟨text, written, reads⟩ := read_expressionText shape plain
  exact ⟨text, t.reading, written, reads, Tree.congruent_reading shape unchained⟩

private def mixed : Tree :=
  .binary "AND" (.unary "IS NULL" (.property "n" "x"))
    (.binary "AND" (.unary "NOT" (.binary "=" (.parameter "p") (.literal (.int (-1)))))
      (.call "f" [.literal (.text "(")]))

theorem Cypher.exists_read_congruent_mixed :
    (mixed.isExpression = true ∧ mixed.wellFormed = true ∧ mixed.hasPlainNames = true ∧
      mixed.isUnchained = true) ∧
    ∃ text r, mixed.expressionText = .ok text ∧ read text = some r ∧
      Tree.Congruent Tree.Regrouped r mixed := by
  have expression : mixed.isExpression = true := by decide
  have formed : mixed.wellFormed = true := by decide +kernel
  have plain : mixed.hasPlainNames = true := by decide +kernel
  have unchained : mixed.isUnchained = true := by decide +kernel
  exact ⟨⟨expression, formed, plain, unchained⟩,
    exists_read_congruent expression formed plain unchained⟩

end GraphQuery
