import GraphQuery.Decimal.Text
import GraphQuery.Proofs.Decimal.Shortest

/-! # Numerals

A numeral consists of digits, a fraction part and an exponent, of which the last two may be absent.
`Numeral.read?` takes a numeral off the front of a text. Written decimals are numerals with the same
value, and reading takes them off whatever follows them, as long as that does not go on with the
numeral.
-/

namespace GraphQuery

open Decimal

/-- The parts of a numeral. -/
structure Numeral where
  whole : List Char
  fraction : List Char
  exponent : Option Int
  deriving DecidableEq, Repr

namespace Numeral

/-- The number that a row of digits denotes. -/
def ofDigits (digits : List Char) : Nat :=
  Nat.ofDigitChars 10 digits 0

def chars (n : Numeral) : List Char :=
  n.whole ++ (if n.fraction = [] then [] else '.' :: n.fraction) ++ n.exponent.elim [] exponentMark

def value (n : Numeral) : ℚ :=
  ofDigits (n.whole ++ n.fraction) * 10 ^ (n.exponent.getD 0 - n.fraction.length)

/-- Whether a numeral has neither a fraction part nor an exponent. -/
def isWhole (n : Numeral) : Bool :=
  n.fraction.isEmpty && n.exponent.isNone

/-- Takes a fraction part off a text: a point and at least one digit. -/
def takeFraction : List Char → List Char × List Char
  | '.' :: rest =>
    if rest.takeWhile Char.isDigit = [] then ([], '.' :: rest)
    else (rest.takeWhile Char.isDigit, rest.dropWhile Char.isDigit)
  | cs => ([], cs)

/-- Takes an exponent off a text: the letter e, a sign and digits. -/
def takeExponent : List Char → Option Int × List Char
  | 'e' :: '-' :: rest =>
    (some (-(ofDigits (rest.takeWhile Char.isDigit) : Int)), rest.dropWhile Char.isDigit)
  | 'e' :: '+' :: rest =>
    (some (ofDigits (rest.takeWhile Char.isDigit) : Int), rest.dropWhile Char.isDigit)
  | cs => (none, cs)

def read? (cs : List Char) : Option (Numeral × List Char) :=
  if cs.takeWhile Char.isDigit = [] then none
  else
    let (fraction, afterFraction) := takeFraction (cs.dropWhile Char.isDigit)
    let (exponent, rest) := takeExponent afterFraction
    some (⟨cs.takeWhile Char.isDigit, fraction, exponent⟩, rest)

/-- Numerals whose parts are rows of digits. -/
structure WellFormed (n : Numeral) : Prop where
  whole_ne_nil : n.whole ≠ []
  whole : ∀ c ∈ n.whole, c.isDigit = true
  fraction : ∀ c ∈ n.fraction, c.isDigit = true

/-- Whether a text cannot go on with a numeral in front of it. -/
def Stops (rest : List Char) : Prop :=
  ∀ c ∈ rest.head?, c.isDigit = false ∧ c ≠ '.' ∧ c ≠ 'e'

/-! ## Reading what was written -/

private theorem takeWhile_digits {digits rest : List Char} (all : ∀ c ∈ digits, c.isDigit = true)
    (stops : ∀ c ∈ rest.head?, c.isDigit = false) :
    (digits ++ rest).takeWhile Char.isDigit = digits ∧
      (digits ++ rest).dropWhile Char.isDigit = rest := by
  rw [List.takeWhile_append_of_pos all, List.dropWhile_append_of_pos all]
  cases rest with
  | nil => simp
  | cons c rest =>
    have stop := stops c rfl
    simp [stop]

private theorem ofDigits_zero_cons (digits : List Char) : ofDigits ('0' :: digits) = ofDigits digits := by
  rw [ofDigits, Nat.ofDigitChars_cons]
  rfl

private theorem isDigit_toDigits (n : Nat) : ∀ c ∈ Nat.toDigits 10 n, c.isDigit = true :=
  fun _ member => Nat.isDigit_of_mem_toDigits (by decide) (by decide) member

private theorem exponentMark_eq (exponent : Int) : ∃ digits : List Char,
    (∀ c ∈ digits, c.isDigit = true) ∧ ofDigits digits = exponent.natAbs ∧
      exponentMark exponent = 'e' :: (if exponent < 0 then '-' else '+') :: digits := by
  have all := isDigit_toDigits exponent.natAbs
  simp only [exponentMark]
  by_cases short : (Nat.toDigits 10 exponent.natAbs).length < 2
  · rw [if_pos short]
    refine ⟨_, ?_, ?_, rfl⟩
    · intro c member
      rcases List.mem_cons.mp member with rfl | member
      · rfl
      · exact all c member
    · rw [ofDigits_zero_cons]
      exact Nat.ofDigitChars_ten_toDigits
  · rw [if_neg short]
    exact ⟨_, all, Nat.ofDigitChars_ten_toDigits, rfl⟩

private theorem takeExponent_mark (exponent : Int) {rest : List Char}
    (stops : ∀ c ∈ rest.head?, c.isDigit = false) :
    takeExponent (exponentMark exponent ++ rest) = (some exponent, rest) := by
  obtain ⟨digits, all, value, written⟩ := exponentMark_eq exponent
  obtain ⟨taken, left⟩ := takeWhile_digits all stops
  rw [written]
  split
  · simp only [List.cons_append, takeExponent, taken, left, value]
    congr 2
    omega
  · simp only [List.cons_append, takeExponent, taken, left, value]
    congr 2
    omega

private theorem takeExponent_of_ne {cs : List Char} (other : ∀ c ∈ cs.head?, c ≠ 'e') :
    takeExponent cs = (none, cs) := by
  unfold takeExponent
  split
  · exact absurd rfl (other 'e' rfl)
  · exact absurd rfl (other 'e' rfl)
  · rfl

private theorem takeFraction_of_ne {cs : List Char} (other : ∀ c ∈ cs.head?, c ≠ '.') :
    takeFraction cs = ([], cs) := by
  unfold takeFraction
  split
  · exact absurd rfl (other '.' rfl)
  · rfl

private theorem takeFraction_point {fraction rest : List Char} (some : fraction ≠ [])
    (all : ∀ c ∈ fraction, c.isDigit = true) (stops : ∀ c ∈ rest.head?, c.isDigit = false) :
    takeFraction ('.' :: (fraction ++ rest)) = (fraction, rest) := by
  obtain ⟨taken, left⟩ := takeWhile_digits all stops
  rw [takeFraction, taken, left, if_neg some]

/-- Reading takes a numeral off whatever does not go on with it. -/
theorem read?_chars {n : Numeral} (formed : n.WellFormed) {rest : List Char} (stops : Stops rest) :
    read? (n.chars ++ rest) = some (n, rest) := by
  obtain ⟨whole, fraction, exponent⟩ := n
  obtain ⟨nonempty, allWhole, allFraction⟩ := formed
  simp only [chars] at *
  -- what follows the fraction part starts with the letter e, or with what follows the numeral
  have follows : ∀ c ∈ (exponent.elim [] exponentMark ++ rest).head?, c.isDigit = false ∧ c ≠ '.' := by
    cases exponent with
    | none => exact fun c first => ⟨(stops c first).1, (stops c first).2.1⟩
    | some exponent =>
      intro c first
      obtain rfl : 'e' = c := by simpa [exponentMark] using first
      decide
  have ending : takeExponent (exponent.elim [] exponentMark ++ rest) = (exponent, rest) := by
    cases exponent with
    | none => exact takeExponent_of_ne fun c first => (stops c first).2.2
    | some exponent => exact takeExponent_mark exponent fun c first => (stops c first).1
  generalize exponent.elim [] exponentMark = mark at *
  simp only [List.append_assoc]
  by_cases none : fraction = []
  · subst none
    obtain ⟨taken, left⟩ := takeWhile_digits allWhole fun c first => (follows c first).1
    simp only [↓reduceIte, List.nil_append, read?, taken, left, if_neg nonempty,
      takeFraction_of_ne fun c first => (follows c first).2, ending]
  · have point := takeFraction_point none allFraction fun c first => (follows c first).1
    have behind : ∀ c ∈ ('.' :: (fraction ++ (mark ++ rest))).head?, c.isDigit = false := by simp
    obtain ⟨taken, left⟩ := takeWhile_digits allWhole behind
    simp only [if_neg none, List.cons_append, read?, taken, left, if_neg nonempty, point, ending]

/-! ## Written numbers are numerals -/

theorem ofDigits_append (digits others : List Char) :
    ofDigits (digits ++ others) = 10 ^ others.length * ofDigits digits + ofDigits others := by
  rw [ofDigits, Nat.ofDigitChars_append, Nat.ofDigitChars_eq_ofDigitChars_zero]
  rfl

theorem ofDigits_toDigits (n : Nat) : ofDigits (Nat.toDigits 10 n) = n :=
  Nat.ofDigitChars_ten_toDigits

theorem ofDigits_replicate_zero (count : Nat) : ofDigits (List.replicate count '0') = 0 := by
  rw [ofDigits, Nat.ofDigitChars_replicate_zero, Nat.mul_zero]

private theorem significant_append_zero (digits : List Char) :
    significant (digits ++ ['0']) = significant digits := by
  simp [significant]

private theorem significant_append_of_ne (digits : List Char) {c : Char} (nonzero : c ≠ '0') :
    significant (digits ++ [c]) = digits ++ [c] := by
  simp [significant, nonzero]

private theorem ofDigits_significant (digits : List Char) :
    (ofDigits (significant digits) : ℚ) * 10 ^ (-(significant digits).length : Int) =
      ofDigits digits * 10 ^ (-digits.length : Int) := by
  induction digits using List.reverseRecOn with
  | nil =>
    simp [show significant [] = ['0'] from rfl, show ofDigits ['0'] = 0 from rfl,
      show ofDigits [] = 0 from rfl]
  | append_singleton digits c ih =>
    by_cases zero : c = '0'
    · subst zero
      rw [significant_append_zero, ih, ofDigits_append]
      have last : ofDigits ['0'] = 0 := rfl
      rw [last, List.length_append, List.length_singleton]
      push_cast
      rw [neg_add, zpow_add₀ (by norm_num)]
      ring
    · rw [significant_append_of_ne digits zero]

private theorem significant_ne_nil (digits : List Char) : significant digits ≠ [] := by
  unfold significant
  split
  · simp
  · assumption

private theorem isDigit_significant {digits : List Char} (all : ∀ c ∈ digits, c.isDigit = true) :
    ∀ c ∈ significant digits, c.isDigit = true := by
  induction digits using List.reverseRecOn with
  | nil => simp [significant]
  | append_singleton digits c ih =>
    by_cases zero : c = '0'
    · rw [zero, significant_append_zero]
      exact ih fun c member => all c (List.mem_append_left _ member)
    · rw [significant_append_of_ne digits zero]
      exact all

section Notation

variable {digits : List Char} (some : digits ≠ []) (all : ∀ c ∈ digits, c.isDigit = true)
  (exponent : Int)
include some all

private theorem exists_numeral_positional : ∃ n : Numeral, n.WellFormed ∧ n.isWhole = false ∧
    positional ['.', '0'] digits exponent = n.chars ∧
    n.value = ofDigits digits * 10 ^ (exponent + 1 - digits.length) := by
  have zeros (count : Nat) : ∀ c ∈ List.replicate count '0', c.isDigit = true := by
    simp [List.mem_replicate]
  rw [positional]
  by_cases small : exponent < 0
  · rw [if_pos small]
    refine ⟨⟨['0'], List.replicate ((-exponent).toNat - 1) '0' ++ digits, none⟩, ⟨?_, ?_, ?_⟩, ?_, ?_, ?_⟩
    · simp
    · simp
    · exact List.forall_mem_append.mpr ⟨zeros _, all⟩
    · simp [isWhole, some]
    · simp [chars, some]
    · have number : ofDigits (['0'] ++ (List.replicate ((-exponent).toNat - 1) '0' ++ digits)) =
          ofDigits digits := by
        rw [List.singleton_append, ofDigits_zero_cons, ofDigits_append, ofDigits_replicate_zero,
          Nat.mul_zero, Nat.zero_add]
      simp only [value, number, Option.getD_none, List.length_append, List.length_replicate]
      congr 2
      omega
  · rw [if_neg small]
    by_cases short : digits.length ≤ exponent.toNat + 1
    · simp only [if_pos short]
      refine ⟨⟨digits ++ List.replicate (exponent.toNat + 1 - digits.length) '0', ['0'], none⟩,
        ⟨?_, ?_, ?_⟩, ?_, ?_, ?_⟩
      · simp [some]
      · exact List.forall_mem_append.mpr ⟨all, zeros _⟩
      · simp
      · simp [isWhole]
      · simp [chars]
      · have number : ofDigits (digits ++ List.replicate (exponent.toNat + 1 - digits.length) '0' ++ ['0']) =
            10 ^ (exponent.toNat + 1 - digits.length + 1) * ofDigits digits := by
          rw [ofDigits_append, ofDigits_append, ofDigits_replicate_zero, List.length_replicate]
          have last : ofDigits ['0'] = 0 := rfl
          rw [last, List.length_singleton]
          ring
        have scale : exponent + 1 - digits.length =
            ((exponent.toNat + 1 - digits.length + 1 : Nat) : Int) + (0 - (1 : Int)) := by omega
        simp only [value, number, Option.getD_none, List.length_singleton, Nat.cast_one]
        rw [scale, zpow_add₀ (by norm_num), zpow_natCast]
        push_cast
        ring
    · simp only [if_neg short]
      have parts : digits.take (exponent.toNat + 1) ++ digits.drop (exponent.toNat + 1) = digits :=
        List.take_append_drop ..
      refine ⟨⟨digits.take (exponent.toNat + 1), digits.drop (exponent.toNat + 1), none⟩,
        ⟨?_, ?_, ?_⟩, ?_, ?_, ?_⟩
      · simp [some]
      · exact fun c member => all c (List.mem_of_mem_take member)
      · exact fun c member => all c (List.mem_of_mem_drop member)
      · simp only [isWhole, Option.isNone_none, Bool.and_true, List.isEmpty_eq_false_iff, ne_eq,
          List.drop_eq_nil_iff]
        exact short
      · simp only [chars, List.drop_eq_nil_iff, if_neg short, Option.elim_none, List.append_nil]
      · simp only [value, parts, Option.getD_none, List.length_drop]
        congr 2
        omega

private theorem exists_numeral_exponential : ∃ n : Numeral, n.WellFormed ∧ n.isWhole = false ∧
    exponential digits exponent = n.chars ∧
    n.value = ofDigits digits * 10 ^ (exponent + 1 - digits.length) := by
  obtain ⟨first, rest, rfl⟩ := List.exists_cons_of_ne_nil some
  obtain ⟨allFirst, allRest⟩ := List.forall_mem_cons.mp all
  refine ⟨⟨[first], rest, Option.some exponent⟩, ⟨?_, ?_, allRest⟩, ?_, ?_, ?_⟩
  · simp
  · simpa using allFirst
  · simp [isWhole]
  · cases rest with
    | nil => simp [exponential, chars]
    | cons second rest => simp [exponential, chars]
  · simp only [value, List.singleton_append, Option.getD_some, List.length_cons]
    congr 2
    omega

end Notation

/-- A decimal is written as a numeral with its value that no whole number is written as. -/
theorem exists_numeral_write (d : Decimal) : ∃ n : Numeral, n.WellFormed ∧ n.isWhole = false ∧
    write shortestStyle d = n.chars ∧ n.value = d.toRat := by
  have some := significant_ne_nil (Nat.toDigits 10 d.coefficient)
  have all := isDigit_significant (isDigit_toDigits d.coefficient)
  have length := ofDigits_significant (Nat.toDigits 10 d.coefficient)
  rw [ofDigits_toDigits] at length
  simp only [write]
  generalize places : (if d.coefficient = 0 then (0 : Int)
    else ((Nat.toDigits 10 d.coefficient).length : Int) - 1 + d.scale) = exponent
  have scaled : (ofDigits (significant (Nat.toDigits 10 d.coefficient)) : ℚ) *
      10 ^ (exponent + 1 - (significant (Nat.toDigits 10 d.coefficient)).length) = d.toRat := by
    rw [sub_eq_neg_add, zpow_add₀ (by norm_num), ← mul_assoc, length, toRat]
    split at places
    · rename_i zero
      simp [zero]
    · rw [mul_assoc, ← zpow_add₀ (by norm_num)]
      congr 2
      omega
  split
  · obtain ⟨n, formed, notWhole, written, value⟩ := exists_numeral_positional some all exponent
    exact ⟨n, formed, notWhole, written, value.trans scaled⟩
  · obtain ⟨n, formed, notWhole, written, value⟩ := exists_numeral_exponential some all exponent
    exact ⟨n, formed, notWhole, written, value.trans scaled⟩

def ofNat (n : Nat) : Numeral :=
  ⟨Nat.toDigits 10 n, [], none⟩

theorem wellFormed_ofNat (n : Nat) : (ofNat n).WellFormed :=
  ⟨Nat.toDigits_ne_nil, isDigit_toDigits n, by simp [ofNat]⟩

@[simp] theorem isWhole_ofNat (n : Nat) : (ofNat n).isWhole = true := rfl

theorem chars_ofNat (n : Nat) : (ofNat n).chars = Nat.toDigits 10 n := by
  simp [ofNat, chars]

end Numeral

end GraphQuery
