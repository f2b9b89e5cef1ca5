/-
The double nearest to a fraction. Of two equally near the one with the even
significand is taken, and beyond the largest finite double the result is infinite.
-/
import Concord.Number.Fixed

namespace Concord.Number

/-- An exponent `e` for which `n / d / 2 ^ e` has 53 binary digits, or the least exponent of
doubles if it has fewer there. -/
def binaryExponent (n d : Nat) : Int :=
  let e := Int.ofNat n.log2 - Int.ofNat d.log2 - 52
  -- the estimate is one too large when the leading digits of `n` are below those of `d`
  let e := if n * Nat.pow 2 (-e).toNat < Nat.pow 2 52 * d * Nat.pow 2 e.toNat then e - 1 else e
  max e Binary.leastExponent

/-- The bits of the double nearest to the positive fraction `n / d`. -/
def nearestBits (n d : Nat) : Nat :=
  let e := binaryExponent n d
  let q := roundHalfEven (n * Nat.pow 2 (-e).toNat) (d * Nat.pow 2 e.toNat)
  if q < Nat.pow 2 52 then q
  else
    let bits := (e + 1075).toNat * Nat.pow 2 52 + (q - Nat.pow 2 52)
    min bits (2047 * Nat.pow 2 52)

/-- The double nearest to the fraction `n / d`. -/
def nearest (n d : Nat) : Float :=
  if n = 0 then 0 else Float.ofBits (UInt64.ofNat (nearestBits n d))

/-- The double nearest to a whole number. -/
def nearestInt (n : Int) : Float := if n < 0 then -nearest n.natAbs 1 else nearest n.natAbs 1

end Concord.Number
