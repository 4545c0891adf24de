import GraphQuery.Proofs.Value.Reordering
import GraphQuery.Query.Normal
import GraphQuery.Query.Text

/-! # Literals up to the order of entries

The normal form of a literal sorts the keys of maps by their texts. So literals that differ only in
the order of entries have one normal form exactly if no map has two keys with one text. Keys of
different kinds may well have one: the number 1 and the text that consists of the digit 1.
-/

namespace GraphQuery

namespace Value

/-- Whether no reordering of entries shows in the ordered form. -/
def ForgetsOrder (v : Value) : Prop :=
  ∀ w, v.Reordered w → w.ordered = v.ordered

namespace ForgetsOrder

variable {v : Value}

private theorem key_eq (forgets : v.ForgetsOrder) :
    ∀ key ∈ v.keys, ∀ other ∈ v.keys, key.asText = other.asText → key = other := by
  cases v with
  | map entries =>
    intro key member other otherMember same
    obtain ⟨entry, among, rfl⟩ := List.mem_map.mp member
    obtain ⟨otherEntry, otherAmong, rfl⟩ := List.mem_map.mp otherMember
    have sorted (others : List (Value × Value)) (perm : entries.Perm others) :
        sortByKey (fun entry => entry.1.asText) (others.map fun entry => (entry.1, entry.2.ordered)) =
          sortByKey (fun entry => entry.1.asText) (entries.map fun entry => (entry.1, entry.2.ordered)) := by
      have whole := forgets _ (.entries perm)
      rwa [ordered_map, ordered_map, map.injEq] at whole
    have equal := eq_of_sortByKey_perm sorted among otherAmong same
    exact (Prod.mk.inj equal).1
  | _ => exact fun _ member => absurd member List.not_mem_nil

private theorem part (forgets : v.ForgetsOrder) (texts : (v.keys.map asText).Nodup) {part : Value}
    (member : part ∈ v.parts) : part.ForgetsOrder := by
  intro other same
  cases v with
  | map entries =>
    obtain ⟨⟨key, item⟩, among, rfl⟩ := List.mem_map.mp member
    obtain ⟨before, after, rfl⟩ := List.append_of_mem among
    have whole := forgets _ (.entry before after key same)
    rw [ordered_map, ordered_map, map.injEq] at whole
    have entries := eq_of_sortByKey_eq (by simp) (by simpa [keys, Function.comp_def] using texts) whole
    simpa using entries
  | list items =>
    obtain ⟨before, after, rfl⟩ := List.append_of_mem (show part ∈ items from member)
    have whole := forgets _ (.listItem before after same)
    simpa [ordered, orderedItems_eq_map] using whole
  | tuple items =>
    obtain ⟨before, after, rfl⟩ := List.append_of_mem (show part ∈ items from member)
    have whole := forgets _ (.tupleItem before after same)
    simpa [ordered, orderedItems_eq_map] using whole
  | _ => cases member

end ForgetsOrder

/-- No reordering shows exactly if keys differ in their texts. -/
theorem forgetsOrder_iff {v : Value} (distinct : v.KeysDiffer id) :
    v.ForgetsOrder ↔ v.KeysDiffer asText := by
  constructor
  · intro forgets
    induction distinct with
    | intro differ _ ih =>
      have texts : (keys _ |>.map asText).Nodup :=
        List.Nodup.map_on forgets.key_eq (by simpa using differ)
      exact keysDiffer_iff.mpr ⟨texts, fun part member => ih part member (forgets.part texts member)⟩
  · intro differ w same
    exact (same.ordered_eq_of_keysDiffer differ).symm

end Value

namespace Tree

/-- A literal has one normal form, and so one text, with all literals that differ from it only in the
order of entries, exactly if no map in it has two keys with one text. -/
theorem normalExpression_reordered_iff {v : Value} (distinct : v.KeysDiffer id) :
    (∀ w, v.Reordered w →
      (literal w).normalExpression = (literal v).normalExpression ∧
        ((literal w).normalExpression >>= expressionText) =
          ((literal v).normalExpression >>= expressionText)) ↔ v.KeysDiffer Value.asText := by
  rw [← Value.forgetsOrder_iff distinct]
  constructor
  · intro one w same
    have forms := (one w same).1
    rwa [normalExpression, normalExpression, Except.ok.injEq, literal.injEq] at forms
  · intro forgets w same
    have forms : (literal w).normalExpression = (literal v).normalExpression := by
      rw [normalExpression, normalExpression, forgets w same]
    exact ⟨forms, by rw [forms]⟩

/-- Keys of four kinds at two depths. -/
def mixedKeys : Value :=
  .list [.map [(.text "b", .tuple [.map [(.null, .int 1), (.bool true, .int 2)]]), (.int 10, .null)]]

/-- The same entries the other way around. -/
def mixedKeysReversed : Value :=
  .list [.map [(.int 10, .null), (.text "b", .tuple [.map [(.bool true, .int 2), (.null, .int 1)]])]]

private theorem reordered_mixedKeys : mixedKeys.Reordered mixedKeysReversed := by
  have inner : Value.Reordered (.tuple [.map [(.null, .int 1), (.bool true, .int 2)]])
      (.tuple [.map [(.bool true, .int 2), (.null, .int 1)]]) :=
    .tupleItem [] [] (.entries (.swap _ _ _))
  have outer := Value.Reordered.entry [] [(.int 10, .null)] (.text "b") inner
  exact .listItem [] [] (outer.trans (.entries (.swap _ _ _)))

/-- Keys of different kinds do no harm as long as their texts differ. -/
theorem normalExpression_reordered_iff_mixedKeys :
    mixedKeys.KeysDiffer id ∧ mixedKeys.KeysDiffer Value.asText ∧ mixedKeys.Reordered mixedKeysReversed ∧
      (literal mixedKeysReversed).normalExpression = (literal mixedKeys).normalExpression := by
  have distinct : mixedKeys.KeysDiffer id := by
    simp [mixedKeys, Value.KeysDiffer]
  have outer : (Value.text "b").asText ≠ (Value.int 10).asText := by decide
  have inner : Value.null.asText ≠ (Value.bool true).asText := by decide
  have texts : mixedKeys.KeysDiffer Value.asText := by
    simp [mixedKeys, Value.KeysDiffer, outer, inner]
  exact ⟨distinct, texts, reordered_mixedKeys,
    ((normalExpression_reordered_iff distinct).mpr texts _ reordered_mixedKeys).1⟩

/-- The number 1 and the text of the digit 1 as keys of one map. -/
def digitKeys : Value :=
  .map [(.int 1, .text "a"), (.text "1", .text "b")]

/-- The same entries in the other order. -/
def digitKeysReversed : Value :=
  .map [(.text "1", .text "b"), (.int 1, .text "a")]

/-- The order of entries under a number and under its text stays in the normal form and shows in the
text of the query. -/
theorem not_normalExpression_eq_digitKeys :
    digitKeys.KeysDiffer id ∧ digitKeys.Reordered digitKeysReversed ∧
      (literal digitKeysReversed).normalExpression ≠ (literal digitKeys).normalExpression ∧
      ((literal digitKeys).normalExpression >>= expressionText) = .ok "\x7b1: \"a\", 1: \"b\"\x7d" ∧
      ((literal digitKeysReversed).normalExpression >>= expressionText) =
        .ok "\x7b1: \"b\", 1: \"a\"\x7d" := by
  have text : ((literal digitKeys).normalExpression >>= expressionText) =
      .ok "\x7b1: \"a\", 1: \"b\"\x7d" := by rfl
  have textReversed : ((literal digitKeysReversed).normalExpression >>= expressionText) =
      .ok "\x7b1: \"b\", 1: \"a\"\x7d" := by rfl
  refine ⟨?_, .entries (.swap _ _ _), fun same => ?_, text, textReversed⟩
  · simp [digitKeys, Value.KeysDiffer]
  · rw [same, text] at textReversed
    exact absurd (Except.ok.inj textReversed) (by decide)

end Tree

end GraphQuery
