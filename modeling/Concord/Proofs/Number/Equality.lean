/-
When doubles are equal as numbers. Neither rounding a whole number nor negating a number gives
a NaN (`isNaN_nearestInt`), and apart from NaN only the two zeros are equal without being the
same (`beq_iff_unsigned`).
-/
import Concord.Number.Nearest
import Mathlib

namespace Concord.Number

open Float.Model

/-! ## Packed doubles -/

/-- A double is a NaN when its exponent is all ones and its fraction is not zero. -/
theorem isNaN_unpack_iff {spec : Format} (b : BitVec spec.numBits) :
    (UnpackedFloat.unpack spec b).isNaN = true ↔
      UnpackedFloat.unpackExponent b = -1#_ ∧ UnpackedFloat.unpackMantissa b ≠ 0#_ := by
  simp only [UnpackedFloat.unpack]
  split
  · split <;> simp_all [UnpackedFloat.isNaN]
  · split
    · split <;> simp_all [UnpackedFloat.isNaN]
    · simp_all [UnpackedFloat.isNaN]

/-- Packing makes no NaN of anything else. -/
theorem isNaN_unpack_pack {spec : Format} {f : UnpackedFloat} (h : f.isNaN = false) :
    (UnpackedFloat.unpack spec (UnpackedFloat.pack spec f)).isNaN = false := by
  rw [← Bool.not_eq_true, isNaN_unpack_iff, not_and, Decidable.not_not]
  fun_cases UnpackedFloat.pack with
  | case1 => simp [UnpackedFloat.isNaN] at h
  | case2 s => simp [UnpackedFloat.packedInfinity]
  | case3 s => simp [UnpackedFloat.packedZero]
  | case4 s m e hm biasedExponent hb => simp [UnpackedFloat.packedInfinity]
  | case5 s m e hm actualMantissaBits biasedExponent h₁ h₂ =>
    intro he
    have hb : biasedExponent < 2 ^ spec.exponentBits - 1 := by omega
    simp only [UnpackedFloat.unpackExponent_packComponents, BitVec.neg_one_eq_allOnes,
      ← BitVec.toNat_inj, BitVec.toNat_ofNat, BitVec.toNat_allOnes] at he
    rw [Nat.mod_eq_of_lt (by omega)] at he
    omega
  | case6 s m e hm actualMantissaBits biasedExponent h₁ h₂ =>
    simp [Nat.pos_iff_ne_zero.1 spec.he]

/-- The parts of packed bits. -/
theorem fields_toNat (b : BitVec 64) :
    (@UnpackedFloat.unpackExponent .binary64 b).toNat = b.toNat / 2 ^ 52 % 2 ^ 11 ∧
      (@UnpackedFloat.unpackMantissa .binary64 b).toNat = b.toNat % 2 ^ 52 ∧
      (@UnpackedFloat.unpackSign .binary64 b).toNat = b.toNat / 2 ^ 63 := by
  have hb := b.isLt
  refine ⟨?_, ?_, ?_⟩
  · simp [UnpackedFloat.unpackExponent, BitVec.extractLsb, BitVec.extractLsb', Nat.shiftRight_eq_div_pow]
  · simp [UnpackedFloat.unpackMantissa, BitVec.extractLsb, BitVec.extractLsb']
  · simp [UnpackedFloat.unpackSign, BitVec.extractLsb, BitVec.extractLsb', Nat.shiftRight_eq_div_pow]
    omega

/-- Up to the bits of infinity, an exponent that is all ones leaves no fraction. -/
theorem mantissa_of_exponent {b : Nat} (h : b ≤ 2047 * Nat.pow 2 52)
    (he : @UnpackedFloat.unpackExponent .binary64 (UInt64.ofNat b).toBitVec = -1#11) :
    @UnpackedFloat.unpackMantissa .binary64 (UInt64.ofNat b).toBitVec = 0#52 := by
  obtain ⟨hexponent, hmantissa, -⟩ := fields_toNat (UInt64.ofNat b).toBitVec
  have hones : (-1#11).toNat = 2047 := rfl
  have hb : (UInt64.ofNat b).toBitVec.toNat = b := by
    simp at h ⊢
    omega
  rw [he, hones, hb] at hexponent
  rw [← BitVec.toNat_inj, hmantissa, hb, BitVec.toNat_zero]
  simp at h
  omega

theorem valid_ofBits {b : Nat} (h : b ≤ 2047 * Nat.pow 2 52) :
    Format.binary64.Valid (UInt64.ofNat b).toBitVec :=
  ⟨fun he hm => absurd (mantissa_of_exponent h he) hm⟩

theorem isNaN_unpacked_neg (f : UnpackedFloat) : f.neg.isNaN = f.isNaN := by cases f <;> rfl

/-! ## Doubles -/

theorem isNaN_of_isFinite {x : Float} (h : x.isFinite = true) : x.isNaN = false := by
  simp only [Float.isFinite, Float.Model.isFinite] at h
  simp only [Float.isNaN, Float.Model.isNaN]
  generalize x.toModel.unpack = f at *
  cases f <;> simp_all [UnpackedFloat.isFinite, UnpackedFloat.isNaN]

theorem isNaN_neg {x : Float} (h : x.isNaN = false) : (-x).isNaN = false := by
  have hneg : x.toModel.unpack.neg.isNaN = false := by rw [isNaN_unpacked_neg]; exact h
  exact isNaN_unpack_pack hneg

/-- Bits up to those of infinity are no NaN. -/
theorem isNaN_ofBits {b : Nat} (h : b ≤ 2047 * Nat.pow 2 52) :
    (Float.ofBits (UInt64.ofNat b)).isNaN = false := by
  refine isNaN_unpack_pack ?_
  rw [← Bool.not_eq_true, isNaN_unpack_iff, not_and, Decidable.not_not]
  exact mantissa_of_exponent h

theorem nearestBits_le (n d : Nat) : nearestBits n d ≤ 2047 * Nat.pow 2 52 := by
  unfold nearestBits
  dsimp only
  split
  · simp only [Nat.pow_eq, Nat.reducePow] at *
    omega
  · exact Nat.min_le_right _ _

theorem isNaN_nearest (n d : Nat) : (nearest n d).isNaN = false := by
  unfold nearest
  split
  · decide
  · exact isNaN_ofBits (nearestBits_le n d)

theorem isNaN_nearestInt (n : Int) : (nearestInt n).isNaN = false := by
  unfold nearestInt
  split
  · exact isNaN_neg (isNaN_nearest _ _)
  · exact isNaN_nearest _ _

/-! ## Equality -/

/-- A double in which zero has no sign. -/
def unsigned (x : Float) : Float := if x = -0 then 0 else x

/-- Doubles that are no NaN are equal as numbers exactly if they are the same but for the sign of a
zero. -/
theorem beq_iff_unsigned {x y : Float} (hx : x.isNaN = false) (hy : y.isNaN = false) :
    (x == y) = true ↔ unsigned x = unsigned y := by
  have hzero : (0 : Float) ≠ -0 := by decide
  simp only [Float.isNaN_eq_decide_eq_nan, decide_eq_false_iff_not] at hx hy
  rw [Float.beq_iff_ne_nan_and_eq, unsigned, unsigned]
  grind

end Concord.Number
