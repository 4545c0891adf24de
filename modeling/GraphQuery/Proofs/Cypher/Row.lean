import GraphQuery.Proofs.Cypher.Operator

/-! # Rows of items

Arguments, the items of a list and the entries of a map are written in a row: a comma stands between
two of them and a bracket behind the last. A row is split into the tokens of its items, and read back
if its items are.
-/

namespace GraphQuery.Cypher

/-- The tokens of several items with commas between them. -/
def separated : List (List Token) → List Token
  | [] => []
  | [piece] => piece
  | piece :: rest => piece ++ .symbol "," :: separated rest

theorem separated_cons (piece : List Token) {pieces : List (List Token)} (some : pieces ≠ []) :
    separated (piece :: pieces) = piece ++ .symbol "," :: separated pieces := by
  cases pieces with
  | nil => exact absurd rfl some
  | cons => rfl

private theorem joinChars_cons (piece : List Char) {pieces : List (List Char)} (some : pieces ≠ []) :
    joinChars comma (piece :: pieces) = piece ++ ',' :: ' ' :: joinChars comma pieces := by
  cases pieces with
  | nil => exact absurd rfl some
  | cons => simp [joinChars, comma]

private theorem length_le_separated (pieces : List (List Token)) :
    pieces.length ≤ (separated pieces).length + 1 := by
  induction pieces with
  | nil => simp
  | cons piece pieces ih =>
    by_cases none : pieces = []
    · simp [none]
    · rw [separated_cons piece none]
      simp only [List.length_append, List.length_cons]
      omega

theorem length_le_of_mem_separated {piece : List Token} {pieces : List (List Token)}
    (member : piece ∈ pieces) : piece.length ≤ (separated pieces).length := by
  induction pieces with
  | nil => simp at member
  | cons first pieces ih =>
    by_cases none : pieces = []
    · obtain rfl : piece = first := by simpa [none] using member
      simp [none, separated]
    · rw [separated_cons first none, List.length_append, List.length_cons]
      rcases List.mem_cons.mp member with rfl | member
      · omega
      · have shorter := ih member
        omega

/-- A row and the bracket behind it are split into the tokens of the items. -/
theorem Lexes.row {close : Char} (bracket : close ∈ singleMarks) (breaker : close ∈ breakers)
    {written : List (List Char)} {pieces : List (List Token)} (items : List.Forall₂ Lexes written pieces) :
    Lexes (joinChars comma written ++ [close])
      (separated pieces ++ [.symbol (String.ofList [close])]) := by
  have last : Lexes [close] [.symbol (String.ofList [close])] := Lexes.nil.mark bracket
  induction items with
  | nil => exact last
  | @cons cs ts written pieces first others ih =>
    by_cases none : written = []
    · subst none
      obtain rfl := List.forall₂_nil_left_iff.mp others
      exact first.append breaker last
    · have some : pieces ≠ [] := by
        rintro rfl
        exact none (List.forall₂_nil_right_iff.mp others)
      rw [joinChars_cons cs none, separated_cons ts some, List.append_assoc, List.append_assoc]
      exact first.append (by decide) (ih.blank.mark (by decide))

section Reading

variable {Item : Type} {close : String} {readItem : List Token → Option (Item × List Token)}

/-- Whether an item is read where a comma or the closing bracket follows. -/
def ReadsItem (close : String) (readItem : List Token → Option (Item × List Token)) (item : Item)
    (ts : List Token) : Prop :=
  ∀ s ∈ [",", close], ∀ rest, readItem (ts ++ .symbol s :: rest) = some (item, .symbol s :: rest)

private theorem readItems_separated (noComma : close ≠ ",") {item : Item} {items : List Item}
    {ts : List Token} {pieces : List (List Token)} (first : ReadsItem close readItem item ts)
    (others : List.Forall₂ (ReadsItem close readItem) items pieces) (rest : List Token) (count : Nat)
    (enough : items.length < count) :
    readItems close readItem count (separated (ts :: pieces) ++ .symbol close :: rest) =
      some (item :: items, rest) := by
  induction others generalizing item ts count with
  | nil =>
    obtain ⟨count, rfl⟩ : ∃ less, count = less + 1 := Nat.exists_eq_succ_of_ne_zero (by omega)
    have read := first close (by simp) rest
    simp only [separated, readItems, read]
    simp [take?_of_ne noComma]
  | @cons next us items pieces second others ih =>
    obtain ⟨count, rfl⟩ : ∃ less, count = less + 1 := Nat.exists_eq_succ_of_ne_zero (by omega)
    have read := first "," (by simp) (separated (us :: pieces) ++ .symbol close :: rest)
    have behind := ih second count (by simpa using enough)
    rw [separated_cons ts (List.cons_ne_nil _ _), List.append_assoc, List.cons_append, readItems, read]
    simp [behind]

/-- A row is read if all of its items are. -/
theorem readRow_separated (noComma : close ≠ ",") (refuses : ∀ rest, readItem (.symbol close :: rest) = none)
    {items : List Item} {pieces : List (List Token)}
    (all : List.Forall₂ (ReadsItem close readItem) items pieces) (rest : List Token) :
    readRow close readItem (separated pieces ++ .symbol close :: rest) = some (items, rest) := by
  cases all with
  | nil => simp [readRow, separated]
  | @cons item ts items pieces first others =>
    have length := others.length_eq
    have least := length_le_separated (ts :: pieces)
    have read := readItems_separated noComma first others rest
      (separated (ts :: pieces) ++ .symbol close :: rest).length
      (by simp only [List.length_append, List.length_cons] at least ⊢; omega)
    rw [readRow]
    split
    · rename_i behind taken
      -- an item that was read does not start with the closing bracket
      rw [eq_of_take? taken] at read
      simp [readItems, refuses] at read
    · exact read

end Reading

end GraphQuery.Cypher
