/-
Shares as doubles. A fraction that is at most one is rounded to a double that is at most
one: rounding keeps to whole bounds (`roundHalfEven_le_of_le`), so the bits stay below
those of one (`nearestBits_le_one`), and the bits of positive doubles are in the order of
the doubles (`ofBits_le_one`).
-/
import Concord.Proofs.Number.Equality

namespace Concord.Number

open Float.Model

/-! ## Rounding -/

/-- Rounding does not pass a whole number. -/
theorem roundHalfEven_le_of_le {n d q : Nat} (hd : 0 < d) (h : n ≤ q * d) : roundHalfEven n d ≤ q := by
  have hdiv : n / d ≤ q := Nat.div_le_of_le_mul (by rwa [Nat.mul_comm])
  rcases Nat.lt_or_eq_of_le hdiv with hlt | heq
  · exact (roundHalfEven_le n d).trans hlt
  · -- the bound is the fraction itself, so that nothing is left to round
    have hmod : n % d = 0 := by
      have hsplit := Nat.div_add_mod n d
      rw [heq, Nat.mul_comm] at hsplit
      omega
    simp [roundHalfEven, hmod, hd, heq]

/-- An exponent that is raised to the least one leaves no larger a significand. -/
theorem significand_max {n d k : Nat} (hk : 52 ≤ k) (h : n * 2 ^ k ≤ 2 ^ 53 * d) :
    max (-(k : Int)) Binary.leastExponent ≤ -52 ∧
      n * 2 ^ (-max (-(k : Int)) Binary.leastExponent).toNat ≤ 2 ^ 53 * d := by
  have hexponent : (-max (-(k : Int)) Binary.leastExponent).toNat ≤ k := by
    have := le_max_left (-(k : Int)) Binary.leastExponent
    omega
  refine ⟨max_le (by omega) (by decide), le_trans ?_ h⟩
  exact Nat.mul_le_mul_left n (Nat.pow_le_pow_right (by decide) hexponent)

/-- The exponent of a fraction that is at most one leaves a significand of at most 53 digits. -/
theorem binaryExponent_spec {n d : Nat} (hn : n ≠ 0) (h : n ≤ d) :
    binaryExponent n d ≤ -52 ∧ n * 2 ^ (-binaryExponent n d).toNat ≤ 2 ^ 53 * d := by
  have hd : d ≠ 0 := by omega
  have hlog : n.log2 ≤ d.log2 := by
    rw [Nat.le_log2 hd]
    exact (Nat.log2_self_le hn).trans h
  obtain ⟨k, hk⟩ : ∃ k, k = d.log2 - n.log2 + 52 := ⟨_, rfl⟩
  have hestimate : Int.ofNat n.log2 - Int.ofNat d.log2 - 52 = -(k : Int) := by
    simp only [Int.ofNat_eq_natCast]
    omega
  have hbound : n * 2 ^ k ≤ 2 ^ 53 * d := by
    calc n * 2 ^ k ≤ 2 ^ (n.log2 + 1) * 2 ^ k := Nat.mul_le_mul_right _ Nat.lt_log2_self.le
      _ = 2 ^ 53 * 2 ^ d.log2 := by
        rw [← pow_add, ← pow_add]
        congr 1
        omega
      _ ≤ 2 ^ 53 * d := Nat.mul_le_mul_left _ (Nat.log2_self_le hd)
  simp only [binaryExponent, hestimate, neg_neg, Int.toNat_natCast]
  split
  · rename_i hless
    have hnext : -(k : Int) - 1 = -((k + 1 : Nat) : Int) := by omega
    rw [hnext]
    refine significand_max (by omega) ?_
    have hzero : (-(k : Int)).toNat = 0 := by omega
    simp only [hzero, Nat.pow_eq, pow_zero, Nat.mul_one] at hless
    rw [pow_succ, ← Nat.mul_assoc]
    omega
  · exact significand_max (by omega) hbound

/-- The bits of one. -/
def oneBits : Nat := 1023 * Nat.pow 2 52

theorem nearestBits_le_one {n d : Nat} (hn : n ≠ 0) (h : n ≤ d) : nearestBits n d ≤ oneBits := by
  obtain ⟨hexponent, hsignificand⟩ := binaryExponent_spec hn h
  have hzero : (binaryExponent n d).toNat = 0 := by omega
  have hle : roundHalfEven (n * 2 ^ (-binaryExponent n d).toNat) d ≤ 2 ^ 53 :=
    roundHalfEven_le_of_le (by omega) hsignificand
  have hone : binaryExponent n d = -52 →
      roundHalfEven (n * 2 ^ (-binaryExponent n d).toNat) d ≤ 2 ^ 52 := by
    intro heq
    refine roundHalfEven_le_of_le (by omega) ?_
    rw [heq, Nat.mul_comm]
    exact Nat.mul_le_mul_left _ h
  simp only [nearestBits, hzero, oneBits, Nat.pow_eq, pow_zero, Nat.mul_one]
  generalize roundHalfEven (n * 2 ^ (-binaryExponent n d).toNat) d = q at *
  generalize binaryExponent n d = e at *
  split
  · omega
  · refine le_trans (Nat.min_le_left _ _) ?_
    rcases Int.lt_or_eq_of_le hexponent with hlt | heq
    · have hfew : (e + 1075).toNat ≤ 1022 := by omega
      omega
    · have hq := hone heq
      have hmany : (e + 1075).toNat = 1023 := by omega
      rw [hmany]
      omega

/-! ## The order of bits -/

theorem unpack_ofBits {b : UInt64} (h : Format.binary64.Valid b.toBitVec) :
    (Float.ofBits b).toModel.unpack = UnpackedFloat.unpack Format.binary64 b.toBitVec := by
  have hpack := UnpackedFloat.pack_unpack_of_valid h
  simp only [Float.ofBits, Float.Model.ofBits, Float.Model.unpack, Float.Model.pack, hpack]

/-- The parts of the bits up to those of one. -/
theorem fields_ofNat {b : Nat} (h : b ≤ oneBits) :
    (@UnpackedFloat.unpackExponent .binary64 (UInt64.ofNat b).toBitVec).toNat = b / 2 ^ 52 ∧
      (@UnpackedFloat.unpackMantissa .binary64 (UInt64.ofNat b).toBitVec).toNat = b % 2 ^ 52 ∧
      @UnpackedFloat.unpackSign .binary64 (UInt64.ofNat b).toBitVec = 0#1 := by
  have hb : b ≤ 1023 * 2 ^ 52 := h
  obtain ⟨hexponent, hmantissa, hsign⟩ := fields_toNat (UInt64.ofNat b).toBitVec
  have hbits : (UInt64.ofNat b).toBitVec.toNat = b := by
    simp
    omega
  rw [hbits] at hexponent hmantissa hsign
  refine ⟨by omega, hmantissa, ?_⟩
  rw [← BitVec.toNat_inj, hsign, BitVec.toNat_zero]
  omega

theorem unpackExponent_ne {b : Nat} (h : b ≤ oneBits) :
    @UnpackedFloat.unpackExponent .binary64 (UInt64.ofNat b).toBitVec ≠ -1#11 := by
  intro hall
  have hexponent := (fields_ofNat h).1
  have hb : b ≤ 1023 * 2 ^ 52 := h
  have hones : (-1#11).toNat = 2047 := rfl
  rw [hall, hones] at hexponent
  omega

theorem unpack_one : (1 : Float).toModel.unpack = .finite .positive (2 ^ 52) (-52) (by decide) := rfl

/-- A double that lies between zero and one. -/
def InUnit (u : UnpackedFloat) : Prop :=
  (0 : Float).toModel.unpack.le u = true ∧ u.le (1 : Float).toModel.unpack = true

theorem inUnit_finite {m : Nat} {e : Int} (hm : 0 < m) (h : e < -52 ∨ e = -52 ∧ m = 2 ^ 52) :
    InUnit (.finite .positive m e hm) := by
  refine ⟨rfl, ?_⟩
  rw [unpack_one]
  rcases h with hlt | ⟨rfl, rfl⟩
  · have hcompare : compare e (-52) = .lt := Int.compare_eq_lt.2 hlt
    simp [UnpackedFloat.le, UnpackedFloat.compare, hcompare]
  · rfl

/-- Bits up to those of one are those of zero, of a positive double with a lower exponent or of one. -/
theorem inUnit_unpack {b : Nat} (h : b ≤ oneBits) :
    InUnit (UnpackedFloat.unpack .binary64 (UInt64.ofNat b).toBitVec) := by
  obtain ⟨hexponent, hmantissa, hsign⟩ := fields_ofNat h
  have hb : b ≤ 1023 * 2 ^ 52 := h
  have hbias : ((Format.binary64.exponentBias : Nat) : Int) + (52 : Nat) = 1075 := rfl
  simp only [UnpackedFloat.unpack, hsign]
  split
  · rename_i hall
    exact absurd hall (unpackExponent_ne h)
  · split
    · split
      · exact ⟨rfl, rfl⟩
      · rename_i hzero _
        exact inUnit_finite _ (.inl (by rw [hzero, hbias]; decide))
    · refine inUnit_finite _ ?_
      rw [hexponent, hbias]
      rcases Nat.lt_or_ge b (1023 * 2 ^ 52) with hlt | hge
      · exact .inl (by omega)
      · have hnone : @UnpackedFloat.unpackMantissa .binary64 (UInt64.ofNat b).toBitVec = 0#52 := by
          rw [← BitVec.toNat_inj, hmantissa, BitVec.toNat_zero]
          omega
        exact .inr ⟨by omega, by rw [hnone]; rfl⟩

/-- The bits of positive doubles are in the order of the doubles. -/
theorem ofBits_le_one {b : Nat} (h : b ≤ oneBits) :
    0 ≤ Float.ofBits (UInt64.ofNat b) ∧ Float.ofBits (UInt64.ofNat b) ≤ 1 := by
  have hunit := inUnit_unpack h
  rw [← unpack_ofBits (valid_ofBits (h.trans (by decide)))] at hunit
  exact ⟨decide_eq_true hunit.1, decide_eq_true hunit.2⟩

/-- **A fraction between zero and one is rounded to a double between zero and one.** -/
theorem nearest_le_one {n d : Nat} (h : n ≤ d) : 0 ≤ nearest n d ∧ nearest n d ≤ 1 := by
  unfold nearest
  split
  · exact ⟨by decide, by decide⟩
  · rename_i hn
    exact ofBits_le_one (nearestBits_le_one hn h)

end Concord.Number
