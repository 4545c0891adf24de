import GraphQuery.Query.Digest
import Mathlib.Algebra.Group.Nat.Defs
import Mathlib.Data.List.Basic

/-! # What digests tell apart

One step of the digest is a permutation of the words: 33 is odd, so multiplying by it can be undone,
and so can combining with a code point. Hence what follows two texts neither makes their digests
differ nor makes them agree, and a single changed character always shows, wherever it is.
-/

namespace GraphQuery

/-! ## Hexadecimal digits -/

namespace Text

/-- The digits in which a digest is written. -/
def hexAlphabet : List Char :=
  "0123456789abcdef".toList

theorem hexDigit_mem_hexAlphabet {n : Nat} (small : n < 16) : hexDigit n ∈ hexAlphabet := by
  revert n
  decide

theorem hexDigit_inj : ∀ m < 16, ∀ n < 16, hexDigit m = hexDigit n → m = n := by
  decide

theorem length_hexDigits (width n : Nat) : (hexDigits width n).length = width := by
  induction width generalizing n with
  | zero => rfl
  | succ width ih => rw [hexDigits, List.length_append, ih, List.length_singleton]

theorem mem_hexAlphabet_of_mem_hexDigits {width n : Nat} {c : Char} (member : c ∈ hexDigits width n) :
    c ∈ hexAlphabet := by
  induction width generalizing n with
  | zero => cases member
  | succ width ih =>
    rcases List.mem_append.mp member with among | last
    · exact ih among
    · rw [List.mem_singleton.mp last]
      exact hexDigit_mem_hexAlphabet (Nat.mod_lt n (by decide))

/-- A number is told by its digits, if there are enough of them. -/
theorem hexDigits_inj {width m n : Nat} (fitsM : m < 16 ^ width) (fitsN : n < 16 ^ width)
    (same : hexDigits width m = hexDigits width n) : m = n := by
  induction width generalizing m n with
  | zero => omega
  | succ width ih =>
    obtain ⟨front, last⟩ := List.append_inj' same rfl
    rw [pow_succ] at fitsM fitsN
    have quotients : m / 16 = n / 16 := ih (by omega) (by omega) front
    have remainders : m % 16 = n % 16 :=
      hexDigit_inj _ (Nat.mod_lt m (by decide)) _ (Nat.mod_lt n (by decide)) (List.singleton_inj.mp last)
    omega

end Text

/-! ## Words -/

private theorem mul_inverse_of_33 (word : UInt32) : word * 33 * 1041204193 = word := by
  have inverse : (33 * 1041204193 : UInt32) = 1 := by decide
  rw [UInt32.mul_assoc, inverse, UInt32.mul_one]

theorem digestStep_left_inj {word other : UInt32} {c : Char} :
    digestStep word c = digestStep other c ↔ word = other := by
  constructor
  · intro same
    have products : word * 33 = other * 33 := (UInt32.xor_left_inj c.val).mp same
    rw [← mul_inverse_of_33 word, products, mul_inverse_of_33]
  · rintro rfl
    rfl

theorem digestStep_right_inj {word : UInt32} {c d : Char} :
    digestStep word c = digestStep word d ↔ c = d := by
  constructor
  · intro same
    exact Char.ext ((UInt32.xor_right_inj _).mp same)
  · rintro rfl
    rfl

/-- What follows keeps different words different. -/
theorem foldl_digestStep_inj (cs : List Char) {word other : UInt32} :
    cs.foldl digestStep word = cs.foldl digestStep other ↔ word = other := by
  induction cs generalizing word other with
  | nil => rfl
  | cons c cs ih => rw [List.foldl_cons, List.foldl_cons, ih, digestStep_left_inj]

/-- The number of places at which two texts differ. -/
def differences (a b : List Char) : Nat :=
  (a.zip b).countP fun pair => pair.1 ≠ pair.2

private theorem eq_of_differences_eq_zero {a b : List Char} (length : a.length = b.length)
    (none : differences a b = 0) : a = b := by
  refine List.ext_getElem length fun place inA inB => ?_
  have pair : (a[place], b[place]) ∈ a.zip b := by
    rw [← List.getElem_zip (h := by simpa [length] using inB)]
    exact List.getElem_mem _
  simpa using List.countP_eq_zero.mp none _ pair

/-- One changed character changes the word. -/
theorem foldl_digestStep_ne {a b : List Char} (length : a.length = b.length)
    (one : differences a b = 1) (word : UInt32) : a.foldl digestStep word ≠ b.foldl digestStep word := by
  induction a generalizing b word with
  | nil => cases one
  | cons c a ih =>
    cases b with
    | nil => cases one
    | cons d b =>
      have lengths : a.length = b.length := Nat.succ.inj length
      rw [differences, List.zip_cons_cons, List.countP_cons] at one
      rw [List.foldl_cons, List.foldl_cons]
      by_cases same : c = d
      · subst same
        exact ih lengths (by simpa [differences] using one) _
      · -- the characters behind the changed one are the same
        have rest : a = b :=
          eq_of_differences_eq_zero lengths (by simpa [same, differences] using one)
        rw [rest, ne_eq, foldl_digestStep_inj, digestStep_right_inj]
        exact same

/-! ## Digests -/

theorem digest_eq_iff {a b : String} : digest a = digest b ↔ digestWord a.toList = digestWord b.toList := by
  constructor
  · intro same
    have digits := String.ofList_injective same
    exact UInt32.toNat_inj.mp (Text.hexDigits_inj (UInt32.toNat_lt _) (UInt32.toNat_lt _) digits)
  · intro same
    rw [digest, digest, same]

/-- A text that follows cancels, a changed character shows, and a digest has eight hexadecimal
digits. -/
theorem digest_separates (a b s : String) :
    (digest (a ++ s) = digest (b ++ s) ↔ digest a = digest b) ∧
      (a.length = b.length → differences a.toList b.toList = 1 → digest a ≠ digest b) ∧
      (digest a).length = 8 ∧ ∀ c ∈ (digest a).toList, c ∈ Text.hexAlphabet := by
  refine ⟨?_, ?_, ?_, ?_⟩
  · rw [digest_eq_iff, digest_eq_iff, String.toList_append, String.toList_append, digestWord, digestWord,
      List.foldl_append, List.foldl_append, foldl_digestStep_inj]
    rfl
  · intro length one
    rw [ne_eq, digest_eq_iff]
    exact foldl_digestStep_ne length one _
  · rw [digest, String.length_ofList, Text.length_hexDigits]
  · intro c member
    rw [digest, String.toList_ofList] at member
    exact Text.mem_hexAlphabet_of_mem_hexDigits member

/-- One digit of a literal in the middle of a query shows in its digest. -/
theorem digest_separates_digit :
    "WHERE n.x = 1 RETURN n".length = "WHERE n.x = 2 RETURN n".length ∧
      differences "WHERE n.x = 1 RETURN n".toList "WHERE n.x = 2 RETURN n".toList = 1 ∧
      digest "WHERE n.x = 1 RETURN n" ≠ digest "WHERE n.x = 2 RETURN n" := by
  have length : "WHERE n.x = 1 RETURN n".length = "WHERE n.x = 2 RETURN n".length := by decide +kernel
  have one : differences "WHERE n.x = 1 RETURN n".toList "WHERE n.x = 2 RETURN n".toList = 1 := by
    decide +kernel
  exact ⟨length, one, (digest_separates _ _ "").2.1 length one⟩

end GraphQuery
