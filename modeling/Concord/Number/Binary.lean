/-
A finite double as a sign, a significand and a power of two. Exact statements
about doubles are made on these natural numbers.
-/
namespace Concord.Number

/-- A double that is not a NaN and not infinite: `significand * 2 ^ exponent`, negated if
`negative`. -/
structure Binary where
  negative : Bool
  significand : Nat
  exponent : Int
deriving DecidableEq, Repr

/-- The exponent of the doubles next to zero. -/
def Binary.leastExponent : Int := -1074

/-- The parts of a finite double. -/
def Binary.ofFloat? (x : Float) : Option Binary :=
  let bits := x.toBits.toNat
  let biased := bits / Nat.pow 2 52 % Nat.pow 2 11
  let fraction := bits % Nat.pow 2 52
  if biased = 2047 then none
  else if biased = 0 then some ⟨bits / Nat.pow 2 63 = 1, fraction, leastExponent⟩
  else some ⟨bits / Nat.pow 2 63 = 1, Nat.pow 2 52 + fraction, Int.ofNat biased - 1075⟩

/-- Whether the double just below is half as far away as the one just above. -/
def Binary.isNarrowBelow (b : Binary) : Bool :=
  b.significand = Nat.pow 2 52 && b.exponent ≠ leastExponent

end Concord.Number
