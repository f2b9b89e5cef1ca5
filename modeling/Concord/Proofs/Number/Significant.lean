/-
Whole numbers as doubles. A double keeps 53 significant binary digits of a whole number, rounded to
the nearest and a half to the even one, so that two numbers of 64 bits are equal as doubles exactly
if they are rounded to the same number (`nearestInt_beq_iff`). Nothing is rounded below `2 ^ 53`
(`eq_of_rounded_eq`).
-/
import Concord.Json.Value
import Concord.Proofs.Number.UnitInterval

namespace Concord.Number

open Float.Model

/-- A number with 53 significant binary digits: the nearest one, or the even one of two that are
equally near. -/
def significant (n : Nat) : Nat := roundHalfEven n (2 ^ (n.log2 - 52)) * 2 ^ (n.log2 - 52)

/-- A whole number with 53 significant binary digits. -/
def rounded (n : Int) : Int := if n < 0 then -significant n.natAbs else significant n.natAbs

/-! ## The significand -/

theorem roundHalfEven_one (n : Nat) : roundHalfEven n 1 = n := by simp [roundHalfEven, Nat.mod_one]

theorem le_roundHalfEven {n d q : Nat} (hd : 0 < d) (h : q * d ≤ n) : q ≤ roundHalfEven n d := by
  have hdiv : q ≤ n / d := (Nat.le_div_iff_mul_le hd).2 h
  refine hdiv.trans ?_
  unfold roundHalfEven
  dsimp only
  split
  · exact Nat.le_refl _
  · split
    · exact Nat.le_succ _
    · split
      · exact Nat.le_refl _
      · exact Nat.le_succ _

/-- The 53 digits of a positive number, or 54 where the last of them is carried over. -/
def significand (n : Nat) : Nat := roundHalfEven (n * 2 ^ (52 - n.log2)) (2 ^ (n.log2 - 52))

theorem significand_bounds {n : Nat} (hn : n ≠ 0) : 2 ^ 52 ≤ significand n ∧ significand n ≤ 2 ^ 53 := by
  have hlow := Nat.log2_self_le hn
  have hhigh := (Nat.lt_log2_self (n := n)).le
  have hpos : 0 < 2 ^ (n.log2 - 52) := Nat.two_pow_pos _
  -- either factor is one
  have hscale : ∀ k, 2 ^ (52 + k) * 2 ^ (n.log2 - 52) = 2 ^ (n.log2 + k) * 2 ^ (52 - n.log2) := by
    intro k
    rw [← pow_add, ← pow_add]
    congr 1
    omega
  constructor
  · refine le_roundHalfEven hpos ?_
    calc 2 ^ 52 * 2 ^ (n.log2 - 52) = 2 ^ n.log2 * 2 ^ (52 - n.log2) := hscale 0
      _ ≤ n * 2 ^ (52 - n.log2) := Nat.mul_le_mul_right _ hlow
  · refine roundHalfEven_le_of_le hpos ?_
    calc n * 2 ^ (52 - n.log2) ≤ 2 ^ (n.log2 + 1) * 2 ^ (52 - n.log2) := Nat.mul_le_mul_right _ hhigh
      _ = 2 ^ 53 * 2 ^ (n.log2 - 52) := (hscale 1).symm

/-- The significand and the logarithm make up the rounded number. -/
theorem significand_mul (n : Nat) : significand n * 2 ^ n.log2 = significant n * 2 ^ 52 := by
  unfold significand significant
  rcases Nat.le_total n.log2 52 with h | h
  · have hzero : n.log2 - 52 = 0 := Nat.sub_eq_zero_of_le h
    rw [hzero, pow_zero, roundHalfEven_one, roundHalfEven_one, Nat.mul_one, Nat.mul_assoc, ← pow_add,
      Nat.sub_add_cancel h]
  · have hzero : 52 - n.log2 = 0 := Nat.sub_eq_zero_of_le h
    rw [hzero, pow_zero, Nat.mul_one, Nat.mul_assoc, ← pow_add, Nat.sub_add_cancel h]

/-- Significands of one number of digits, and the logarithms with them, are compared alike by what
they make up and by their bits. -/
theorem significand_shift {p q k : Nat} (hp : p ≤ 2 ^ 53) (hq : 2 ^ 52 ≤ q) :
    p = k * 2 ^ 52 + q ↔ p = q * 2 ^ k := by
  rcases k with _ | _ | k
  · simp
  · have : q * 2 ^ (0 + 1) = 2 * q := by rw [Nat.zero_add, pow_one, Nat.mul_comm]
    omega
  · have hpow : 4 * q ≤ q * 2 ^ (k + 1 + 1) := by
      rw [Nat.mul_comm]
      refine Nat.mul_le_mul_left q ?_
      calc 4 = 2 ^ 2 := rfl
        _ ≤ 2 ^ (k + 1 + 1) := Nat.pow_le_pow_right (by decide) (by omega)
    omega

theorem significant_eq_iff {m n : Nat} (hm : m ≠ 0) (hn : n ≠ 0) : significant m = significant n ↔
    m.log2 * 2 ^ 52 + significand m = n.log2 * 2 ^ 52 + significand n := by
  have hcancel : significant m = significant n ↔
      significand m * 2 ^ m.log2 = significand n * 2 ^ n.log2 := by
    rw [significand_mul, significand_mul, Nat.mul_left_inj (by decide)]
  have hordered : ∀ {a b : Nat}, a ≠ 0 → b ≠ 0 → a.log2 ≤ b.log2 →
      (significand a * 2 ^ a.log2 = significand b * 2 ^ b.log2 ↔
        a.log2 * 2 ^ 52 + significand a = b.log2 * 2 ^ 52 + significand b) := by
    intro a b ha hb hle
    obtain ⟨k, hk⟩ := Nat.exists_eq_add_of_le hle
    have hshift := significand_shift (k := k) (significand_bounds ha).2 (significand_bounds hb).1
    have hscale : significand b * 2 ^ b.log2 = significand b * 2 ^ k * 2 ^ a.log2 := by
      rw [hk, Nat.add_comm, pow_add, Nat.mul_assoc]
    rw [hscale, Nat.mul_left_inj (Nat.two_pow_pos _).ne', ← hshift, hk, Nat.add_mul]
    omega
  rw [hcancel]
  rcases Nat.le_total m.log2 n.log2 with h | h
  · exact hordered hm hn h
  · rw [eq_comm, hordered hn hm h, eq_comm]

/-! ## Bits -/

theorem binaryExponent_one {n : Nat} (hn : n ≠ 0) : binaryExponent n 1 = n.log2 - 52 := by
  have hlow := Nat.log2_self_le hn
  have hone : (1 : Nat).log2 = 0 := by decide
  have hestimate : Int.ofNat n.log2 - Int.ofNat (1 : Nat).log2 - 52 = (n.log2 : Int) - 52 := by
    simp [hone]
  have hneg : (-((n.log2 : Int) - 52)).toNat = 52 - n.log2 := by omega
  have hpos : ((n.log2 : Int) - 52).toNat = n.log2 - 52 := by omega
  have hexact : ¬ n * Nat.pow 2 (52 - n.log2) < Nat.pow 2 52 * 1 * Nat.pow 2 (n.log2 - 52) := by
    rw [Nat.not_lt, Nat.mul_one]
    calc 2 ^ 52 * 2 ^ (n.log2 - 52) = 2 ^ n.log2 * 2 ^ (52 - n.log2) := by
          rw [← pow_add, ← pow_add]
          congr 1
          omega
      _ ≤ n * 2 ^ (52 - n.log2) := Nat.mul_le_mul_right _ hlow
  have hleast : (n.log2 : Int) - 52 ≥ Binary.leastExponent := by
    have : Binary.leastExponent = -1074 := rfl
    omega
  simp only [binaryExponent, hestimate, hneg, hpos, if_neg hexact]
  exact max_eq_left hleast

/-- The bits of a positive number of 64 bits. -/
theorem nearestBits_one {n : Nat} (hn : n ≠ 0) (h : n < 2 ^ 64) :
    nearestBits n 1 = (n.log2 + 1022) * 2 ^ 52 + significand n := by
  have hlog : n.log2 < 64 := (Nat.log2_lt hn).2 h
  obtain ⟨hlow, hhigh⟩ := significand_bounds hn
  have hneg : (-((n.log2 : Int) - 52)).toNat = 52 - n.log2 := by omega
  have hpos : ((n.log2 : Int) - 52).toNat = n.log2 - 52 := by omega
  have hbiased : ((n.log2 : Int) - 52 + 1075).toNat = n.log2 + 1023 := by omega
  have hsignificand : roundHalfEven (n * 2 ^ (52 - n.log2)) (1 * 2 ^ (n.log2 - 52)) = significand n := by
    rw [Nat.one_mul, significand]
  simp only [nearestBits, binaryExponent_one hn, hneg, hpos, hbiased, hsignificand, Nat.pow_eq]
  rw [if_neg (Nat.not_lt.2 hlow), min_eq_left]
  · omega
  · omega

theorem toBits_ofBits {b : Nat} (h : b ≤ 2047 * Nat.pow 2 52) :
    (Float.ofBits (UInt64.ofNat b)).toBits = UInt64.ofNat b := by
  have hpack := UnpackedFloat.pack_unpack_of_valid (valid_ofBits h)
  simp only [Float.toBits, Float.ofBits, Float.Model.ofBits, Float.Model.pack, hpack]

/-- Negation turns the sign round and keeps the rest. -/
theorem unpack_neg (b : BitVec 64) : (UnpackedFloat.unpack .binary64 b).neg =
    UnpackedFloat.unpack .binary64 (UnpackedFloat.packComponents .binary64
      (-(UnpackedFloat.Sign.ofBitVec (@UnpackedFloat.unpackSign .binary64 b)))
      (@UnpackedFloat.unpackExponent .binary64 b) (@UnpackedFloat.unpackMantissa .binary64 b)) := by
  simp only [UnpackedFloat.unpack, UnpackedFloat.unpackExponent_packComponents,
    UnpackedFloat.unpackMantissa_packComponents, UnpackedFloat.unpackSign_packComponents,
    UnpackedFloat.Sign.ofBitVec_toBitVec]
  split
  · split <;> rfl
  · split
    · split <;> rfl
    · rfl

/-- The bits of a negated number are those of the number with a sign before them. -/
theorem toBits_neg {b : Nat} (h : b ≤ 2047 * Nat.pow 2 52) :
    (-Float.ofBits (UInt64.ofNat b)).toBits.toNat = 2 ^ 63 + b := by
  have hb : (UInt64.ofNat b).toBitVec.toNat = b := by
    simp at h ⊢
    omega
  obtain ⟨hexponent, hmantissa, hsign⟩ := fields_toNat (UInt64.ofNat b).toBitVec
  rw [hb] at hexponent hmantissa hsign
  have hpositive : @UnpackedFloat.unpackSign .binary64 (UInt64.ofNat b).toBitVec = 0#1 := by
    rw [← BitVec.toNat_inj, hsign, BitVec.toNat_zero]
    simp at h
    omega
  generalize hpacked : UnpackedFloat.packComponents .binary64
    (-(UnpackedFloat.Sign.ofBitVec (@UnpackedFloat.unpackSign .binary64 (UInt64.ofNat b).toBitVec)))
    (@UnpackedFloat.unpackExponent .binary64 (UInt64.ofNat b).toBitVec)
    (@UnpackedFloat.unpackMantissa .binary64 (UInt64.ofNat b).toBitVec) = packed
  have hneg := unpack_neg (UInt64.ofNat b).toBitVec
  rw [hpacked] at hneg
  obtain ⟨hexponent', hmantissa', hsign'⟩ := fields_toNat packed
  have hsame : @UnpackedFloat.unpackExponent .binary64 packed =
        @UnpackedFloat.unpackExponent .binary64 (UInt64.ofNat b).toBitVec ∧
      @UnpackedFloat.unpackMantissa .binary64 packed =
        @UnpackedFloat.unpackMantissa .binary64 (UInt64.ofNat b).toBitVec ∧
      @UnpackedFloat.unpackSign .binary64 packed = 1#1 := by
    rw [← hpacked, UnpackedFloat.unpackExponent_packComponents, UnpackedFloat.unpackMantissa_packComponents,
      UnpackedFloat.unpackSign_packComponents, hpositive]
    exact ⟨rfl, rfl, rfl⟩
  have hvalid : Format.binary64.Valid packed := by
    refine ⟨fun he hm => absurd ?_ hm⟩
    rw [hsame.2.1]
    exact mantissa_of_exponent h (hsame.1.symm.trans he)
  have hbits : (-Float.ofBits (UInt64.ofNat b)).toBits = ⟨packed⟩ := by
    show UInt64.ofBitVec (UnpackedFloat.pack .binary64
      (Float.ofBits (UInt64.ofNat b)).toModel.unpack.neg) = ⟨packed⟩
    rw [unpack_ofBits (valid_ofBits h), hneg, UnpackedFloat.pack_unpack_of_valid hvalid]
  rw [hsame.1, hexponent] at hexponent'
  rw [hsame.2.1, hmantissa] at hmantissa'
  rw [hsame.2.2, show (1#1).toNat = 1 from rfl] at hsign'
  rw [hbits]
  show packed.toNat = 2 ^ 63 + b
  simp at h
  omega

/-! ## Equality -/

/-- The bits of a natural number as a double. -/
def bitsOf (n : Nat) : Nat := if n = 0 then 0 else nearestBits n 1

theorem bitsOf_le (n : Nat) : bitsOf n ≤ 2047 * Nat.pow 2 52 := by
  unfold bitsOf
  split
  · exact Nat.zero_le _
  · exact nearestBits_le n 1

theorem nearest_one (n : Nat) : nearest n 1 = Float.ofBits (UInt64.ofNat (bitsOf n)) := by
  unfold nearest bitsOf
  split
  · decide
  · rfl

theorem significant_pos {n : Nat} (hn : n ≠ 0) : 0 < significant n := by
  have hmul := significand_mul n
  have hpos : 0 < significand n * 2 ^ n.log2 :=
    Nat.mul_pos (Nat.lt_of_lt_of_le (by decide) (significand_bounds hn).1) (Nat.two_pow_pos _)
  rw [hmul] at hpos
  exact Nat.pos_of_mul_pos_right hpos

theorem bitsOf_ne_zero {n : Nat} (hn : n ≠ 0) (h : n < 2 ^ 64) : bitsOf n ≠ 0 := by
  have hlow := (significand_bounds hn).1
  rw [bitsOf, if_neg hn, nearestBits_one hn h]
  omega

theorem bitsOf_eq_iff {m n : Nat} (hm : m < 2 ^ 64) (hn : n < 2 ^ 64) :
    bitsOf m = bitsOf n ↔ significant m = significant n := by
  have hzero : bitsOf 0 = 0 ∧ significant 0 = 0 := by decide
  by_cases hm0 : m = 0
  · by_cases hn0 : n = 0
    · rw [hm0, hn0]
      simp only
    · have hbits := bitsOf_ne_zero hn0 hn
      have hvalue := significant_pos hn0
      rw [hm0, hzero.1, hzero.2]
      omega
  · by_cases hn0 : n = 0
    · have hbits := bitsOf_ne_zero hm0 hm
      have hvalue := significant_pos hm0
      rw [hn0, hzero.1, hzero.2]
      omega
    · rw [bitsOf, bitsOf, if_neg hm0, if_neg hn0, nearestBits_one hm0 hm, nearestBits_one hn0 hn,
        significant_eq_iff hm0 hn0]
      omega

theorem toBits_nearestInt (n : Int) :
    (nearestInt n).toBits.toNat = (if n < 0 then 2 ^ 63 else 0) + bitsOf n.natAbs := by
  have hle := bitsOf_le n.natAbs
  unfold nearestInt
  split
  · rw [nearest_one, toBits_neg hle]
  · rw [nearest_one, toBits_ofBits hle]
    simp at hle ⊢
    omega

theorem natAbs_of_isWhole64 {n : Int} (h : Json.isWhole64 n = true) : n.natAbs < 2 ^ 64 := by
  have hrange : minInt64 ≤ n ∧ n ≤ Int.ofNat maxNat64 := by simpa [Json.isWhole64] using h
  simp only [minInt64, maxNat64, Nat.pow_eq, Int.ofNat_eq_natCast] at hrange
  omega

/-- No whole number becomes the zero with a sign. -/
theorem unsigned_nearestInt {n : Int} (h : n.natAbs < 2 ^ 64) : unsigned (nearestInt n) = nearestInt n := by
  rw [unsigned, if_neg]
  intro hzero
  have hbits := toBits_nearestInt n
  have hsigned : (-0 : Float).toBits.toNat = 2 ^ 63 := by decide
  have hle := bitsOf_le n.natAbs
  rw [hzero, hsigned] at hbits
  simp at hle
  split at hbits
  · exact bitsOf_ne_zero (by omega) h (by omega)
  · omega

/-- Rounding keeps the sign, and makes no number zero that is not. -/
theorem rounded_eq_iff {m n : Int} :
    rounded m = rounded n ↔ (m < 0 ↔ n < 0) ∧ significant m.natAbs = significant n.natAbs := by
  have hpos {k : Int} (hk : k < 0) : 0 < significant k.natAbs := significant_pos (by omega)
  unfold rounded
  by_cases hm : m < 0
  · have := hpos hm
    by_cases hn : n < 0
    · rw [if_pos hm, if_pos hn]
      omega
    · rw [if_pos hm, if_neg hn]
      omega
  · by_cases hn : n < 0
    · have := hpos hn
      rw [if_neg hm, if_pos hn]
      omega
    · rw [if_neg hm, if_neg hn]
      omega

/-- Whole numbers of 64 bits are equal as doubles exactly if they are rounded to the same number. -/
theorem nearestInt_beq_iff {m n : Int} (hm : Json.isWhole64 m = true) (hn : Json.isWhole64 n = true) :
    (nearestInt m == nearestInt n) = true ↔ rounded m = rounded n := by
  have hm' := natAbs_of_isWhole64 hm
  have hn' := natAbs_of_isWhole64 hn
  have hmle := bitsOf_le m.natAbs
  have hnle := bitsOf_le n.natAbs
  rw [beq_iff_unsigned (isNaN_nearestInt m) (isNaN_nearestInt n), unsigned_nearestInt hm', unsigned_nearestInt hn',
    ← Float.toBits_inj, ← UInt64.toNat_inj, toBits_nearestInt, toBits_nearestInt, rounded_eq_iff,
    ← bitsOf_eq_iff hm' hn']
  -- the bit of the sign lies above all others
  simp at hmle hnle
  split <;> split <;> omega

/-! ## Exact numbers -/

theorem significant_of_lt {n : Nat} (h : n < 2 ^ 53) : significant n = n := by
  have hlog : n.log2 - 52 = 0 := by
    by_cases hn : n = 0
    · rw [hn]
      decide
    · have := (Nat.log2_lt hn).2 h
      omega
  rw [significant, hlog, pow_zero, roundHalfEven_one, Nat.mul_one]

theorem le_significant {n : Nat} (h : 2 ^ 53 ≤ n) : 2 ^ 53 ≤ significant n := by
  have hn : n ≠ 0 := by omega
  have hlog : 53 ≤ n.log2 := (Nat.le_log2 hn).2 h
  have hmul : 2 ^ 53 * 2 ^ 52 ≤ significant n * 2 ^ 52 := by
    rw [← significand_mul, Nat.mul_comm]
    exact Nat.mul_le_mul (significand_bounds hn).1 (Nat.pow_le_pow_right (by decide) hlog)
  exact Nat.le_of_mul_le_mul_right hmul (by decide)

/-- Below `2 ^ 53` nothing is rounded, and nothing is rounded to there from above. -/
theorem eq_of_significant_eq {m n : Nat} (h : min m n < 2 ^ 53) (heq : significant m = significant n) : m = n := by
  rcases Nat.lt_or_ge m (2 ^ 53) with hm | hm
  · rcases Nat.lt_or_ge n (2 ^ 53) with hn | hn
    · rw [significant_of_lt hm, significant_of_lt hn] at heq
      exact heq
    · have := le_significant hn
      rw [significant_of_lt hm] at heq
      omega
  · have hn : n < 2 ^ 53 := by omega
    have := le_significant hm
    rw [significant_of_lt hn] at heq
    omega

theorem eq_of_rounded_eq {m n : Int} (h : min m.natAbs n.natAbs < 2 ^ 53) (heq : rounded m = rounded n) :
    m = n := by
  obtain ⟨hsign, hsignificant⟩ := rounded_eq_iff.1 heq
  have hnat := eq_of_significant_eq h hsignificant
  omega

end Concord.Number
