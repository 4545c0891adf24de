import GraphQuery.Decimal.Form
import Mathlib

/-! # Floats and their readings

The reading of a float determines the float: the encoding is put together again from the sign, the
exponent and the fraction, and no two floats have one encoding.
-/

namespace GraphQuery.FloatForm

open Float.Model (Format)
open Float.Model.UnpackedFloat

/-! ## Encodings -/

section Encoding

variable (b : BitVec Format.binary64.numBits)

theorem toNat_unpackExponent : (unpackExponent b).toNat = b.toNat / 2 ^ 52 % 2048 := by
  simp [unpackExponent, Nat.shiftRight_eq_div_pow]

theorem toNat_unpackMantissa : (unpackMantissa b).toNat = b.toNat % 2 ^ 52 := by
  simp [unpackMantissa]

end Encoding

/-- A float is what its encoding says. -/
theorem ofBits_toBits (x : Float) : Float.ofBits x.toBits = x := by
  obtain ⟨bits, valid⟩ := x
  simp only [Float.ofBits, Float.toBits, Float.Model.ofBits, Float.Model.pack,
    pack_unpack_of_valid valid, UInt64.ofBitVec_toBitVec]

/-! ## The float of a reading -/

def encoding : FloatForm → Nat
  | nan => 2047 * 2 ^ 52 + 2 ^ 51
  | infinite negative => (if negative then 2 ^ 63 else 0) + 2047 * 2 ^ 52
  | finite negative mantissa exponent =>
    (if negative then 2 ^ 63 else 0) +
      if mantissa < leastNormal then mantissa
      else (exponent - leastExponent).toNat * 2 ^ 52 + mantissa

def toFloat (form : FloatForm) : Float :=
  Float.ofBits (UInt64.ofNat form.encoding)

private theorem toBits_eq_of_nan {x : Float} (ones : x.toBits.toNat / 2 ^ 52 % 2048 = 2047)
    (some : x.toBits.toNat % 2 ^ 52 ≠ 0) : x.toBits.toNat = 2047 * 2 ^ 52 + 2 ^ 51 := by
  obtain ⟨bits, valid⟩ := x
  have canonical := valid.eq_packedNaN
    (BitVec.eq_of_toNat_eq ((toNat_unpackExponent _).trans ones))
    fun none => some ((toNat_unpackMantissa _).symm.trans (congrArg BitVec.toNat none))
  exact congrArg BitVec.toNat canonical

theorem encoding_ofFloat (x : Float) : (ofFloat x).encoding = x.toBits.toNat := by
  have width : x.toBits.toNat < 2 ^ 64 := x.toBits.toNat_lt
  have nan := toBits_eq_of_nan (x := x)
  have unit : leastNormal = 2 ^ 52 := rfl
  unfold ofFloat
  by_cases ones : x.toBits.toNat / leastNormal % 2048 = 2047
  · rw [if_pos ones]
    by_cases none : x.toBits.toNat % leastNormal = 0
    · rw [if_pos none]
      simp only [encoding, decide_eq_true_eq, Nat.pow_eq]
      rw [unit] at ones none
      split <;> omega
    · rw [if_neg none]
      exact (nan ones none).symm
  · rw [if_neg ones]
    by_cases zeros : x.toBits.toNat / leastNormal % 2048 = 0
    · rw [if_pos zeros]
      simp only [encoding, decide_eq_true_eq, Nat.pow_eq]
      rw [if_pos (c := _ < leastNormal) (Nat.mod_lt _ (by decide))]
      rw [unit] at zeros ⊢
      split <;> omega
    · rw [if_neg zeros]
      simp only [encoding, decide_eq_true_eq, Nat.pow_eq]
      rw [if_neg (c := leastNormal + _ < leastNormal) (by omega)]
      rw [unit] at ones zeros ⊢
      split <;> omega

/-- A float is what its reading says. -/
theorem toFloat_ofFloat (x : Float) : (ofFloat x).toFloat = x := by
  rw [toFloat, encoding_ofFloat, UInt64.ofNat_toNat, ofBits_toBits]

end GraphQuery.FloatForm
