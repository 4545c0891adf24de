import GraphQuery.Proofs.Decimal.Nearest

/-! # Floats, taken apart and packed

Arithmetic takes floats apart into a sign, a mantissa and an exponent, and packs what it computes.
The parts of a float are its reading, and a mantissa and an exponent in the form in which floats
keep them are packed as they are, or as an infinity if the exponent is too large.
-/

namespace GraphQuery.FloatForm

open Float.Model (Format UnpackedFloat)
open Float.Model.UnpackedFloat

def sign (negative : Bool) : Sign :=
  if negative then .negative else .positive

/-- A reading as arithmetic takes it. -/
def unpacked : FloatForm → UnpackedFloat
  | nan => .notANumber
  | infinite negative => .infinity (sign negative)
  | finite negative mantissa exponent =>
    if positive : 0 < mantissa then .finite (sign negative) mantissa exponent positive
    else .zero (sign negative)

theorem unpacked_finite (negative : Bool) {mantissa : Nat} (exponent : Int) (positive : 0 < mantissa) :
    (finite negative mantissa exponent).unpacked =
      .finite (sign negative) mantissa exponent positive :=
  dif_pos positive

theorem unpacked_zero (negative : Bool) (exponent : Int) :
    (finite negative 0 exponent).unpacked = .zero (sign negative) :=
  rfl

section Encoding

variable (b : BitVec Format.binary64.numBits)

private theorem ofBitVec_unpackSign :
    Sign.ofBitVec (unpackSign b) = sign (decide (2 ^ 63 ≤ b.toNat)) := by
  have width : b.toNat < 2 ^ 64 := b.isLt
  have bit : (unpackSign b).toNat = b.toNat / 2 ^ 63 := by
    simp only [unpackSign, BitVec.toNat_cast, BitVec.extractLsb_toNat, Nat.shiftRight_eq_div_pow]
    omega
  unfold Sign.ofBitVec sign
  by_cases high : 2 ^ 63 ≤ b.toNat
  · rw [if_neg, if_pos (decide_eq_true high)]
    intro zero
    have none := congrArg BitVec.toNat zero
    rw [bit] at none
    simp at none
    omega
  · rw [if_pos, if_neg (by simpa using high)]
    apply BitVec.eq_of_toNat_eq
    rw [bit]
    simp
    omega

private theorem unpackExponent_eq_ones : unpackExponent b = -1#_ ↔ b.toNat / 2 ^ 52 % 2048 = 2047 := by
  rw [← toNat_unpackExponent, ← BitVec.toNat_inj]
  rfl

private theorem unpackExponent_eq_zero : unpackExponent b = 0#_ ↔ b.toNat / 2 ^ 52 % 2048 = 0 := by
  rw [← toNat_unpackExponent, ← BitVec.toNat_inj]
  rfl

private theorem unpackMantissa_eq_zero : unpackMantissa b = 0#_ ↔ b.toNat % 2 ^ 52 = 0 := by
  rw [← toNat_unpackMantissa, ← BitVec.toNat_inj]
  rfl

private theorem toNat_withLeadingBit {width : Nat} (m : BitVec width) :
    (1#1 ++ m).toNat = 2 ^ width + m.toNat := by
  rw [BitVec.toNat_append, ← Nat.shiftLeft_add_eq_or_of_lt m.isLt, Nat.shiftLeft_eq, BitVec.toNat_ofNat]
  omega


private theorem unpack_encoding {x : Float} (same : x.toBits.toNat = b.toNat) :
    unpack Format.binary64 b = (ofFloat x).unpacked := by
  have unit : leastNormal = 2 ^ 52 := rfl
  have top : Nat.pow 2 63 = 2 ^ 63 := rfl
  have bias : ((Format.binary64.exponentBias : Int) + Format.binary64.mantissaBitsWithoutImplicit) =
      1075 := rfl
  simp only [unpack, ofFloat, same, unit, top, ofBitVec_unpackSign, bias]
  by_cases ones : b.toNat / 2 ^ 52 % 2048 = 2047
  · rw [if_pos ((unpackExponent_eq_ones b).mpr ones), if_pos ones]
    by_cases none : b.toNat % 2 ^ 52 = 0
    · rw [if_pos ((unpackMantissa_eq_zero b).mpr none), if_pos none]
      rfl
    · rw [if_neg (mt (unpackMantissa_eq_zero b).mp none), if_neg none]
      rfl
  · rw [if_neg (mt (unpackExponent_eq_ones b).mp ones), if_neg ones]
    by_cases zeros : b.toNat / 2 ^ 52 % 2048 = 0
    · rw [if_pos ((unpackExponent_eq_zero b).mpr zeros), if_pos zeros]
      by_cases none : b.toNat % 2 ^ 52 = 0
      · rw [dif_pos ((unpackMantissa_eq_zero b).mpr none), none, unpacked_zero]
      · rw [dif_neg (mt (unpackMantissa_eq_zero b).mp none), unpacked_finite _ _ (Nat.pos_of_ne_zero none)]
        simp only [toNat_unpackMantissa, toNat_unpackExponent, zeros]
        rfl
    · rw [if_neg (mt (unpackExponent_eq_zero b).mp zeros), if_neg zeros,
        unpacked_finite _ _ (by omega)]
      have exponent (biased : Nat) : (biased : Int) - 1075 = leastExponent + biased - 1 := by
        rw [show leastExponent = -1074 from rfl]
        omega
      simp only [toNat_withLeadingBit, toNat_unpackMantissa, toNat_unpackExponent, exponent]

end Encoding

/-- Arithmetic takes a float as its reading. -/
theorem unpack_eq (x : Float) : x.toModel.unpack = (ofFloat x).unpacked :=
  unpack_encoding _ rfl

/-! ## Packing -/

private theorem sign_injective {n k : Bool} (same : sign n = sign k) : n = k := by
  cases n <;> cases k <;> first | rfl | cases same

private theorem ofFloat_of_components {x : Float} {negative : Bool}
    {e : BitVec Format.binary64.exponentBits}
    {m : BitVec Format.binary64.mantissaBitsWithoutImplicit}
    (packed : x.toBits.toBitVec = packComponents Format.binary64 (sign negative) e m) :
    ofFloat x =
      if e.toNat = 2047 then if m.toNat = 0 then infinite negative else nan
      else if e.toNat = 0 then finite negative m.toNat leastExponent
      else finite negative (leastNormal + m.toNat) (leastExponent + e.toNat - 1) := by
  have biased : x.toBits.toNat / leastNormal % 2048 = e.toNat := by
    have read := toNat_unpackExponent x.toBits.toBitVec
    rw [packed, unpackExponent_packComponents, ← packed] at read
    exact read.symm
  have fraction : x.toBits.toNat % leastNormal = m.toNat := by
    have read := toNat_unpackMantissa x.toBits.toBitVec
    rw [packed, unpackMantissa_packComponents, ← packed] at read
    exact read.symm
  have signed : decide (Nat.pow 2 63 ≤ x.toBits.toNat) = negative := by
    have read := ofBitVec_unpackSign x.toBits.toBitVec
    rw [packed, unpackSign_packComponents, Sign.ofBitVec_toBitVec, ← packed] at read
    exact (sign_injective read).symm
  simp only [ofFloat, biased, fraction, signed]

def packed (u : UnpackedFloat) : Float :=
  .ofModel (.pack u)

theorem ofFloat_packed_notANumber : ofFloat (packed .notANumber) = nan := by
  decide +kernel

theorem ofFloat_packed_infinity (negative : Bool) :
    ofFloat (packed (.infinity (sign negative))) = infinite negative := by
  cases negative <;> decide +kernel

theorem ofFloat_packed_zero (negative : Bool) :
    ofFloat (packed (.zero (sign negative))) = finite negative 0 leastExponent := by
  cases negative <;> decide +kernel

/-- A mantissa and an exponent are packed as they are if the exponent is not too large. -/
theorem ofFloat_packed_finite (negative : Bool) {mantissa : Nat} {exponent : Int}
    (positive : 0 < mantissa) (small : mantissa < 2 * leastNormal) (least : leastExponent ≤ exponent)
    (normal : leastExponent < exponent → leastNormal ≤ mantissa) :
    ofFloat (packed (.finite (sign negative) mantissa exponent positive)) =
      if greatestExponent < exponent then infinite negative
      else finite negative mantissa exponent := by
  have unit : leastNormal = 2 ^ 52 := rfl
  have lowest : leastExponent = -1074 := rfl
  have greatest : greatestExponent = 971 := rfl
  have biased : (exponent + Format.binary64.exponentBias + Format.binary64.mantissaBitsWithoutImplicit) =
      exponent + 1075 := by
    rw [add_assoc]
    rfl
  have bits : (packed (.finite (sign negative) mantissa exponent positive)).toBits.toBitVec =
      pack Format.binary64 (.finite (sign negative) mantissa exponent positive) := rfl
  simp only [pack, biased] at bits
  rw [unit] at small normal
  rw [lowest] at least normal
  have fields : Format.binary64.exponentBits = 11 ∧ Format.binary64.mantissaBitsWithoutImplicit = 52 :=
    ⟨rfl, rfl⟩
  by_cases large : greatestExponent < exponent
  · rw [greatest] at large
    rw [if_pos (by omega)] at bits
    rw [if_pos (by rwa [greatest]), ofFloat_of_components bits]
    rfl
  · rw [greatest] at large
    rw [if_neg (by omega)] at bits
    rw [if_neg (by rwa [greatest])]
    by_cases full : 2 ^ 52 ≤ mantissa
    · have log : mantissa.log2 + 1 = Format.binary64.mantissaBits := by
        rw [(Nat.log2_eq_iff positive.ne').mpr ⟨full, by omega⟩]
        rfl
      rw [if_pos log] at bits
      rw [ofFloat_of_components bits, BitVec.toNat_ofNat, BitVec.toNat_ofNat, fields.1, fields.2,
        Nat.mod_eq_of_lt (a := (exponent + 1075).toNat) (by omega), if_neg (by omega),
        if_neg (by omega), unit, lowest]
      congr 1 <;> omega
    · have log : ¬mantissa.log2 + 1 = Format.binary64.mantissaBits := by
        have := (Nat.log2_lt positive.ne').mpr (not_le.mp full)
        change ¬mantissa.log2 + 1 = 53
        omega
      rw [if_neg log] at bits
      rw [ofFloat_of_components bits, BitVec.toNat_ofNat, BitVec.toNat_ofNat,
        Nat.mod_eq_of_lt (not_le.mp full), if_neg (by decide), if_pos (by decide), lowest]
      congr 1
      omega

end GraphQuery.FloatForm
