import GraphQuery.Text.Encoded
import Mathlib.Data.List.TakeWhile
import Mathlib.Tactic.SplitIfs

/-! # Text that is written reads back

The decoder is written against the bytes, the encoder is the one of strings. Each of the four widths
of a character is taken off the front of whatever follows it, so the bytes of a string give back its
characters.
-/

namespace GraphQuery.Text

/-! ## The bytes of a string -/

private theorem toList_loop (bytes : ByteArray) (i : Nat) (before : List UInt8) :
    ByteArray.toList.loop bytes i before = before.reverse ++ bytes.data.toList.drop i := by
  induction i, before using ByteArray.toList.loop.induct bytes with
  | case1 i before inside ih =>
    have bound : i < bytes.data.toList.length := by simpa using inside
    have first : bytes.get! i = bytes.data.toList[i] := by
      simp only [ByteArray.get!, Array.getElem_toList]
      exact getElem!_pos bytes.data i (by simpa using inside)
    rw [ByteArray.toList.loop, if_pos inside, ih, List.drop_eq_getElem_cons bound, first,
      List.reverse_cons, List.append_assoc, List.singleton_append]
  | case2 i before outside =>
    have bound : bytes.data.toList.length ≤ i := by simpa using outside
    rw [ByteArray.toList.loop, if_neg outside, List.drop_eq_nil_of_le bound, List.append_nil]

theorem toList_toUTF8 (s : String) : s.toUTF8.toList = s.toList.flatMap String.utf8EncodeChar := by
  have listed : s.toUTF8 = (s.toList.flatMap String.utf8EncodeChar).toByteArray := by
    rw [← List.utf8Encode, ← String.toByteArray_ofList, String.ofList_toList]
    rfl
  rw [ByteArray.toList, toList_loop, listed, List.toList_data_toByteArray]
  rfl

/-! ## One character -/

section Bytes

variable {n : Nat}

private theorem toNat_ofNat (small : n < 256) : (UInt8.ofNat n).toNat = n := by
  rw [UInt8.toNat_ofNat', Nat.mod_eq_of_lt small]

private theorem lengthFrom?_one (small : n ≤ 0x7f) : lengthFrom? (UInt8.ofNat n) = some 1 := by
  have value : (UInt8.ofNat n).toNat = n := toNat_ofNat (by omega)
  have isOne : n < 0x80 := by omega
  simp [lengthFrom?, UInt8.lt_iff_toNat_lt, value, isOne]

private theorem lengthFrom?_two (least : 0xc2 ≤ n) (most : n < 0xe0) :
    lengthFrom? (UInt8.ofNat n) = some 2 := by
  have value : (UInt8.ofNat n).toNat = n := toNat_ofNat (by omega)
  have notOne : ¬ n < 0x80 := by omega
  simp [lengthFrom?, UInt8.lt_iff_toNat_lt, UInt8.le_iff_toNat_le, value, notOne, least, most]

private theorem lengthFrom?_three (least : 0xe0 ≤ n) (most : n < 0xf0) :
    lengthFrom? (UInt8.ofNat n) = some 3 := by
  have value : (UInt8.ofNat n).toNat = n := toNat_ofNat (by omega)
  have notOne : ¬ n < 0x80 := by omega
  have notTwo : ¬ n < 0xe0 := by omega
  simp [lengthFrom?, UInt8.lt_iff_toNat_lt, UInt8.le_iff_toNat_le, value, notOne, notTwo, least, most]

private theorem lengthFrom?_four (least : 0xf0 ≤ n) (most : n < 0xf5) :
    lengthFrom? (UInt8.ofNat n) = some 4 := by
  have value : (UInt8.ofNat n).toNat = n := toNat_ofNat (by omega)
  have notOne : ¬ n < 0x80 := by omega
  have notTwo : ¬ n < 0xe0 := by omega
  have notThree : ¬ n < 0xf0 := by omega
  simp [lengthFrom?, UInt8.lt_iff_toNat_lt, UInt8.le_iff_toNat_le, value, notOne, notTwo, notThree, least,
    most]

private theorem isContinuation_ofNat (n : Nat) : isContinuation (UInt8.ofNat (n % 64 + 128)) := by
  have value : (UInt8.ofNat (n % 64 + 128)).toNat = n % 64 + 128 := toNat_ofNat (by omega)
  have most : n % 64 + 128 ≤ 0xbf := by omega
  rw [isContinuation, Bool.and_eq_true, decide_eq_true_eq, decide_eq_true_eq, UInt8.le_iff_toNat_le,
    UInt8.le_iff_toNat_le, value]
  exact ⟨Nat.le_add_left 128 _, most⟩

private theorem follows_ofNat {m : Nat} (inRange : n < 256)
    (notShorter : (n = 0xe0 → 32 ≤ m % 64) ∧ (n = 0xf0 → 16 ≤ m % 64))
    (notAbove : (n = 0xed → m % 64 ≤ 31) ∧ (n = 0xf4 → m % 64 ≤ 15)) :
    follows (UInt8.ofNat n) (UInt8.ofNat (m % 64 + 128)) := by
  have first : (UInt8.ofNat n).toNat = n := toNat_ofNat inRange
  have second : (UInt8.ofNat (m % 64 + 128)).toNat = m % 64 + 128 := toNat_ofNat (by omega)
  simp only [follows, ← UInt8.toNat_inj, UInt8.le_iff_toNat_le, Bool.and_eq_true, decide_eq_true_eq, first,
    second]
  constructor
  · split_ifs with isE0 isF0
    · exact Nat.add_le_add_right (notShorter.1 isE0) 128
    · exact Nat.add_le_add_right (notShorter.2 isF0) 128
    · exact Nat.le_add_left 128 _
  · split_ifs with isED isF4
    · exact Nat.add_le_add_right (notAbove.1 isED) 128
    · exact Nat.add_le_add_right (notAbove.2 isF4) 128
    · exact Nat.add_le_add_right (Nat.le_of_lt_succ (Nat.mod_lt m (by decide))) 128

private theorem lowBits_six (n : Nat) : lowBits 6 (UInt8.ofNat (n % 64 + 128)) = n % 64 := by
  have value : (UInt8.ofNat (n % 64 + 128)).toNat = n % 64 + 128 := toNat_ofNat (by omega)
  rw [lowBits, value]
  show (n % 64 + 128) % 64 = n % 64
  omega

private theorem characterOf_two (small : n ≤ 0x7ff) :
    characterOf [UInt8.ofNat (n / 64 % 32 + 192), UInt8.ofNat (n % 64 + 128)] = Char.ofNat n := by
  have first : lowBits 5 (UInt8.ofNat (n / 64 % 32 + 192)) = n / 64 := by
    rw [lowBits, toNat_ofNat (by omega)]
    show (n / 64 % 32 + 192) % 32 = n / 64
    omega
  rw [characterOf, first, lowBits_six]
  congr 1
  omega

private theorem characterOf_three (small : n ≤ 0xffff) :
    characterOf [UInt8.ofNat (n / 4096 % 16 + 224), UInt8.ofNat (n / 64 % 64 + 128),
      UInt8.ofNat (n % 64 + 128)] = Char.ofNat n := by
  have first : lowBits 4 (UInt8.ofNat (n / 4096 % 16 + 224)) = n / 4096 := by
    rw [lowBits, toNat_ofNat (by omega)]
    show (n / 4096 % 16 + 224) % 16 = n / 4096
    omega
  rw [characterOf, first, lowBits_six, lowBits_six]
  congr 1
  omega

private theorem characterOf_four (small : n < 0x110000) :
    characterOf [UInt8.ofNat (n / 262144 % 8 + 240), UInt8.ofNat (n / 4096 % 64 + 128),
      UInt8.ofNat (n / 64 % 64 + 128), UInt8.ofNat (n % 64 + 128)] = Char.ofNat n := by
  have first : lowBits 3 (UInt8.ofNat (n / 262144 % 8 + 240)) = n / 262144 := by
    rw [lowBits, toNat_ofNat (by omega)]
    show (n / 262144 % 8 + 240) % 8 = n / 262144
    omega
  rw [characterOf, first, lowBits_six, lowBits_six, lowBits_six]
  congr 1
  omega

end Bytes

private theorem decodeFrom_bytes {first second : UInt8} (others : List UInt8)
    (length : lengthFrom? first = some (others.length + 2)) (next : follows first second)
    (continued : ∀ b ∈ others, isContinuation b) (fuel : Nat) (rest : List UInt8) :
    decodeFrom (fuel + 1) (first :: second :: (others ++ rest)) =
      (decodeFrom fuel rest).map (characterOf (first :: second :: others) :: ·) := by
  have taken : takeCharacter (others.length + 2) (first :: second :: (others ++ rest)) =
      first :: second :: others := by
    rw [takeCharacter, if_pos next, Nat.add_sub_cancel, List.take_left,
      List.takeWhile_eq_self_iff.mpr continued]
  simp only [decodeFrom, length, taken, List.length_cons, List.drop_succ_cons, List.drop_left, if_true]

private theorem decodeFrom_utf8EncodeChar (c : Char) (fuel : Nat) (rest : List UInt8) :
    decodeFrom (fuel + 1) (String.utf8EncodeChar c ++ rest) = (decodeFrom fuel rest).map (c :: ·) := by
  have valid : c.val.toNat < 0xd800 ∨ 0xdfff < c.val.toNat ∧ c.val.toNat < 0x110000 := c.valid
  have code : Char.ofNat c.val.toNat = c := Char.ofNat_toNat c
  unfold String.utf8EncodeChar
  generalize c.val.toNat = n at valid code
  dsimp only
  split_ifs with one two three
  · have value : (UInt8.ofNat n).toNat = n := toNat_ofNat (by omega)
    simp only [List.singleton_append, decodeFrom, lengthFrom?_one one, value, code]
  · have taken := decodeFrom_bytes [] (lengthFrom?_two (n := n / 64 % 32 + 192) (by omega) (by omega))
      (follows_ofNat (m := n) (by omega) (by omega) (by omega)) (by simp) fuel rest
    rwa [characterOf_two two, code] at taken
  · have taken := decodeFrom_bytes [UInt8.ofNat (n % 64 + 128)]
      (lengthFrom?_three (n := n / 4096 % 16 + 224) (by omega) (by omega))
      (follows_ofNat (m := n / 64) (by omega) (by omega) (by omega))
      (List.forall_mem_singleton.mpr (isContinuation_ofNat n)) fuel rest
    rwa [characterOf_three three, code] at taken
  · have taken := decodeFrom_bytes [UInt8.ofNat (n / 64 % 64 + 128), UInt8.ofNat (n % 64 + 128)]
      (lengthFrom?_four (n := n / 262144 % 8 + 240) (by omega) (by omega))
      (follows_ofNat (m := n / 4096) (by omega) (by omega) (by omega))
      (List.forall_mem_cons.mpr ⟨isContinuation_ofNat _,
        List.forall_mem_singleton.mpr (isContinuation_ofNat n)⟩) fuel rest
    rwa [characterOf_four (by omega), code] at taken

/-! ## The whole text -/

private theorem decodeFrom_flatMap (cs : List Char) {fuel : Nat} (enough : cs.length ≤ fuel) :
    decodeFrom fuel (cs.flatMap String.utf8EncodeChar) = .ok cs := by
  induction cs generalizing fuel with
  | nil => cases fuel <;> rfl
  | cons c rest ih =>
    obtain ⟨fuel, rfl⟩ := Nat.exists_eq_add_of_le' (Nat.lt_of_lt_of_le (Nat.succ_pos _) enough)
    rw [List.flatMap_cons, decodeFrom_utf8EncodeChar, ih (by simpa using enough)]
    rfl

private theorem length_le_length_flatMap (cs : List Char) :
    cs.length ≤ (cs.flatMap String.utf8EncodeChar).length := by
  induction cs with
  | nil => exact Nat.le_refl 0
  | cons c rest ih =>
    have positive := c.utf8Size_pos
    rw [List.flatMap_cons, List.length_append, String.length_utf8EncodeChar, List.length_cons]
    omega

/-- What is written as a string is decoded to its characters. -/
theorem decode_toUTF8 (s : String) : decode s.toUTF8.toList = .ok s.toList := by
  rw [toList_toUTF8, decode]
  exact decodeFrom_flatMap _ (length_le_length_flatMap _)

/-- Text without carriage returns has plain newlines already. -/
theorem withPlainNewlines_of_notMem {cs : List Char} (plain : '\r' ∉ cs) : withPlainNewlines cs = cs := by
  induction cs with
  | nil => rfl
  | cons c rest ih =>
    rw [List.mem_cons, not_or] at plain
    rw [withPlainNewlines, ih plain.2]
    · exact fun rest' same => absurd same.symm plain.1
    · exact fun same => plain.1 same.symm

end GraphQuery.Text
