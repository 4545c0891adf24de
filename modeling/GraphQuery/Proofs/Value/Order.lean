import GraphQuery.Proofs.Sorting
import GraphQuery.Value.Display
import GraphQuery.Value.Order

/-! # Entries under text keys

Text keys always compare, and entries under them are sorted by the texts.
-/

namespace GraphQuery.Value

private theorem keyOrder?_of_texts {a b : Value} (first : a.text?.isSome = true)
    (second : b.text?.isSome = true) : keyOrder? a b = some (compare a.asText b.asText) := by
  cases a with
  | text s =>
    cases b with
    | text t => simp only [keyOrder?, asText]
    | _ => simp [text?] at second
  | _ => simp [text?] at first

private theorem comparableKeys_of_texts {Item : Type} {entries : List (Value × Item)}
    (texts : ∀ entry ∈ entries, entry.1.text?.isSome = true) : comparableKeys entries = true := by
  induction entries with
  | nil => rfl
  | cons entry rest ih =>
    obtain ⟨first, others⟩ := List.forall_mem_cons.mp texts
    simp only [comparableKeys, ih others, Bool.and_true, List.all_eq_true]
    intro other member
    rw [keyOrder?_of_texts first (others other member)]
    rfl

/-- Entries under text keys are sorted by the texts. -/
theorem sortEntries?_of_texts {Item : Type} {entries : List (Value × Item)}
    (texts : ∀ entry ∈ entries, entry.1.text?.isSome = true) :
    sortEntries? entries = some (sortByKey (fun entry => entry.1.asText) entries) := by
  rw [sortEntries?, if_pos (comparableKeys_of_texts texts), sortByKey, Option.some.injEq]
  apply stableSort_congr
  intro a memberA b memberB
  rw [keyOrder?_of_texts (texts a memberA) (texts b memberB), Bool.eq_iff_iff, decide_eq_true_eq,
    ← compare_le_iff_le]
  simp

end GraphQuery.Value
