/-
Doubles with a fixed number of decimal places. The exact value is rounded, a
half goes to the even neighbour, and a negative zero keeps its sign.
-/
import Concord.Number.Binary

namespace Concord.Number

/-- `n / d` rounded to the nearest whole number, a half to the even one. -/
def roundHalfEven (n d : Nat) : Nat :=
  let q := n / d
  let twice := 2 * (n % d)
  if twice < d then q else if d < twice then q + 1 else if q % 2 = 0 then q else q + 1

theorem roundHalfEven_le (n d : Nat) : roundHalfEven n d ≤ n / d + 1 := by
  unfold roundHalfEven
  simp only
  split
  · omega
  · split
    · omega
    · split <;> omega

/-- Whole units of `10 ^ (-places)` with their point. -/
def pointed (places units : Nat) : String :=
  if places = 0 then String.ofList (Nat.toDigits 10 units)
  else
    let fraction := Nat.toDigits 10 (units % Nat.pow 10 places)
    String.ofList (Nat.toDigits 10 (units / Nat.pow 10 places) ++ '.' ::
      List.replicate (places - fraction.length) '0' ++ fraction)

/-- A double with `places` decimal places; `signed` writes a plus sign too. -/
def fixedText (places : Nat) (signed : Bool) (x : Float) : String :=
  match Binary.ofFloat? x with
  | none => if x.isNaN then "NaN" else if x < 0 then "-inf" else if signed then "+inf" else "inf"
  | some b =>
    let units := roundHalfEven (b.significand * Nat.pow 2 b.exponent.toNat * Nat.pow 10 places)
      (Nat.pow 2 (-b.exponent).toNat)
    (if b.negative then "-" else if signed then "+" else "") ++ pointed places units

end Concord.Number
