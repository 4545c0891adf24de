import GraphQuery.Json.Reader
import GraphQuery.Proofs.Outcome
import GraphQuery.Proofs.Value.Identity
import Mathlib.Data.List.Induction

/-! # What the reader of documents returns

A name that is repeated in an object keeps one value, and an integer of too many digits is no part of a
document. So every document that is read stands for a value whose maps have distinct keys and whose
integers can be written.
-/

namespace GraphQuery

namespace Text

/-- A number has no more digits than it is given by. -/
theorem ofDigits_lt {digits : List Nat} (small : ∀ digit ∈ digits, digit < 10) :
    ofDigits digits < 10 ^ digits.length := by
  induction digits using List.reverseRecOn with
  | nil => simp
  | append_singleton digits digit ih =>
    obtain ⟨others, last⟩ := List.forall_mem_append.mp small
    have below := ih others
    have lastBelow := last digit (List.mem_singleton_self digit)
    rw [ofDigits_append_singleton, List.length_append, List.length_singleton, pow_succ]
    omega

theorem ofDigits_lt_pow {digits : List Nat} (small : ∀ digit ∈ digits, digit < 10) {most : Nat}
    (fits : digits.length ≤ most) : ofDigits digits < Nat.pow 10 most :=
  (ofDigits_lt small).trans_le (Nat.pow_le_pow_right (by decide) fits)

end Text

namespace Json

/-- A document has distinct names in every object and no integer that is too long to be written. -/
structure IsProper (document : Json) : Prop where
  json : (Value.ofJson document).isJson = true
  writable : (Value.ofJson document).isWritable = true

theorem isProper_array {items : List Json} (proper : ∀ item ∈ items, item.IsProper) :
    (array items).IsProper where
  json := by
    rw [Value.ofJson, Value.ofJsonItems_eq_map, Value.isJson_list, List.forall_mem_map]
    exact fun item member => (proper item member).json
  writable := by
    rw [Value.ofJson, Value.ofJsonItems_eq_map, Value.isWritable_list, List.all_eq_true, List.forall_mem_map]
    exact fun item member => (proper item member).writable

theorem isProper_object {fields : List (String × Json)} (distinct : (fields.map Prod.fst).Nodup)
    (proper : ∀ field ∈ fields, field.2.IsProper) : (object fields).IsProper where
  json := by
    rw [Value.ofJson, Value.ofJsonFields_eq_map, Value.isJson_map, List.map_map, List.forall_mem_map]
    exact ⟨distinct, fun field member => ⟨rfl, (proper field member).json⟩⟩
  writable := by
    rw [Value.ofJson, Value.ofJsonFields_eq_map, Value.isWritable_map, List.all_eq_true, List.forall_mem_map]
    exact fun field member => (proper field member).writable

theorem isProper_ofPairs {fields : List (String × Json)} (proper : ∀ field ∈ fields, field.2.IsProper) :
    (object (Assoc.ofPairs fields)).IsProper :=
  isProper_object (Assoc.nodup_ofPairs fields) (Assoc.forall_mem_ofPairs proper)

private theorem spanDigits_lt (cs : List Char) : ∀ digit ∈ (Decimal.spanDigits cs).1, digit < 10 := by
  fun_induction Decimal.spanDigits cs with
  | case1 | case3 => exact List.forall_mem_nil _
  | case2 c rest isDigit digits after split ih =>
    have bounds : 48 ≤ c.toNat ∧ c.toNat ≤ 57 := by
      simpa [Char.isDigit, UInt32.le_iff_toNat_le] using isDigit
    rw [split] at ih
    exact List.forall_mem_cons.mpr ⟨by omega, ih⟩

private theorem wholePart_lt (cs : List Char) : ∀ digit ∈ (wholePart cs).1, digit < 10 := by
  unfold wholePart
  split
  · simp
  · exact spanDigits_lt cs

private theorem isProper_int (negative : Bool) {digits : List Nat} (small : ∀ digit ∈ digits, digit < 10)
    (few : ¬Decimal.digitLimit < digits.length) :
    (int (Decimal.withSign negative (Text.ofDigits digits))).IsProper where
  json := rfl
  writable := by
    have size : (Decimal.withSign negative (Text.ofDigits digits)).natAbs = Text.ofDigits digits := by
      cases negative <;> simp [Decimal.withSign]
    have fits : digits.length ≤ Decimal.digitLimit := by omega
    simp only [Value.ofJson, Value.isWritable, Value.throughout, Value.isTooLong, size, Bool.not_eq_true',
      decide_eq_false_iff_not, not_le]
    exact Text.ofDigits_lt_pow small fits

private theorem isProper_float (x : Float) : (float x).IsProper := ⟨rfl, rfl⟩

private theorem isProper_of_readNumber {cs rest : List Char} {document : Json}
    (read : readNumber cs = .ok (document, rest)) : document.IsProper := by
  unfold readNumber at read
  have small (cs : List Char) := wholePart_lt cs
  grind [isProper_int, isProper_float]

private theorem isProper_constants : ∀ constant ∈ constants, constant.2.IsProper := by
  have null : IsProper .null := ⟨rfl, rfl⟩
  have bool : IsProper (.bool true) ∧ IsProper (.bool false) := ⟨⟨rfl, rfl⟩, ⟨rfl, rfl⟩⟩
  simp [constants, null, bool, isProper_float]

private theorem isProper_of_readScalar {cs rest : List Char} {document : Json}
    (read : readScalar cs = .ok (document, rest)) : document.IsProper := by
  unfold readScalar at read
  split at read
  · rename_i found located
    cases read
    obtain ⟨⟨word, value⟩, member, taken⟩ := List.exists_of_findSome?_eq_some located
    obtain ⟨after, -, same⟩ := Option.map_eq_some_iff.mp taken
    cases same
    exact isProper_constants _ member
  · exact isProper_of_readNumber read

mutual

private theorem isProper_of_readValue : (fuel : Nat) → {cs rest : List Char} → {document : Json} →
    readValue fuel cs = .ok (document, rest) → document.IsProper
  | 0, _, _, _, read => by cases read
  | fuel + 1, cs, rest, document, read => by
    unfold readValue at read
    split at read
    · obtain ⟨text, -, same⟩ := bind_eq_ok_iff.mp read
      cases same
      exact ⟨rfl, rfl⟩
    · split at read
      · cases read
        exact ⟨rfl, rfl⟩
      · obtain ⟨⟨items, after⟩, ran, same⟩ := bind_eq_ok_iff.mp read
        cases same
        exact isProper_array (isProper_of_readItems fuel ran)
    · split at read
      · cases read
        exact ⟨rfl, rfl⟩
      · obtain ⟨⟨fields, after⟩, ran, same⟩ := bind_eq_ok_iff.mp read
        cases same
        exact isProper_ofPairs (isProper_of_readFields fuel ran)
    · exact isProper_of_readScalar read

private theorem isProper_of_readItems : (fuel : Nat) → {cs rest : List Char} → {items : List Json} →
    readItems fuel cs = .ok (items, rest) → ∀ item ∈ items, item.IsProper
  | 0, _, _, _, read => by cases read
  | fuel + 1, cs, rest, items, read => by
    unfold readItems at read
    obtain ⟨⟨item, afterItem⟩, ran, read⟩ := bind_eq_ok_iff.mp read
    have first := isProper_of_readValue fuel ran
    dsimp only at read
    split at read
    · cases read
      simpa using first
    · obtain ⟨⟨others, after⟩, ran, same⟩ := bind_eq_ok_iff.mp read
      cases same
      exact List.forall_mem_cons.mpr ⟨first, isProper_of_readItems fuel ran⟩
    · cases read

private theorem isProper_of_readFields : (fuel : Nat) → {cs rest : List Char} →
    {fields : List (String × Json)} → readFields fuel cs = .ok (fields, rest) →
    ∀ field ∈ fields, field.2.IsProper
  | 0, _, _, _, read => by cases read
  | fuel + 1, cs, rest, fields, read => by
    unfold readFields at read
    split at read
    · obtain ⟨⟨name, afterName⟩, -, read⟩ := bind_eq_ok_iff.mp read
      dsimp only at read
      split at read
      · obtain ⟨⟨item, afterItem⟩, ran, read⟩ := bind_eq_ok_iff.mp read
        have first := isProper_of_readValue fuel ran
        dsimp only at read
        split at read
        · cases read
          simpa using first
        · obtain ⟨⟨others, after⟩, ran, same⟩ := bind_eq_ok_iff.mp read
          cases same
          exact List.forall_mem_cons.mpr ⟨first, isProper_of_readFields fuel ran⟩
        · cases read
      · cases read
    · cases read

end

/-- A document that is read has distinct names in every object and no integer that is too long. -/
theorem isProper_of_parse {source : String} {document : Json} (read : parse source = .ok document) :
    document.IsProper := by
  unfold parse parseChars at read
  split at read
  · cases read
  · split at read
    · cases read
    · rename_i found
      split at read
      · cases read
        exact isProper_of_readValue _ found
      · cases read

end Json

end GraphQuery
