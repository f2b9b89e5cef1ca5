/-
The shortest decimal that reads back as a given double, and its text. Of the
decimals with the fewest digits in the interval of reals that round to the double,
the nearest is taken, and the even one of two that are equally near.
-/
import Concord.Number.Binary

namespace Concord.Number

/-- A positive decimal `digits * 10 ^ exponent`. -/
structure Decimal where
  digits : Nat
  exponent : Int
deriving DecidableEq, Repr

/-- `a * 2 ^ q * 10 ^ e` as a fraction. -/
def scaled (a : Nat) (q e : Int) : Nat × Nat :=
  (a * Nat.pow 2 q.toNat * Nat.pow 10 e.toNat, Nat.pow 2 (-q).toNat * Nat.pow 10 (-e).toNat)

/-- The number of decimal digits of `n`; zero has none. -/
def digitCount (n : Nat) : Nat := if n = 0 then 0 else (Nat.toDigits 10 n).length

/-- The decimal exponent of the first digit of the positive fraction `n / d`. -/
def leadingExponent (n d : Nat) : Int :=
  if d ≤ n then Int.ofNat (digitCount (n / d)) - 1
  else
    let k := digitCount ((d - 1) / n)
    -- `10 ^ (k - 1) ≤ (d - 1) / n < 10 ^ k`, so `n / d` lies near `10 ^ (-k)`
    if d ≤ n * Nat.pow 10 k then -Int.ofNat k else -Int.ofNat k - 1

/-- The grid point of the grid `10 ^ unit` that lies nearest to the double among those that read
back as it. All three bounds are multiples of a quarter of the distance to the next double. -/
def Binary.onGrid? (b : Binary) (unit : Int) : Option Decimal :=
  let (value, one) := scaled (4 * b.significand) (b.exponent - 2) (-unit)
  let (low, _) := scaled (4 * b.significand - if b.isNarrowBelow then 1 else 2)
    (b.exponent - 2) (-unit)
  let (high, _) := scaled (4 * b.significand + 2) (b.exponent - 2) (-unit)
  let inside := fun c =>
    if b.significand % 2 = 0 then decide (low ≤ c * one ∧ c * one ≤ high)
    else decide (low < c * one ∧ c * one < high)
  let below := value / one
  let above := below + 1
  let toBelow := value - below * one
  let toAbove := above * one - value
  let first := if toBelow < toAbove ∨ (toBelow = toAbove ∧ below % 2 = 0) then below else above
  let second := if first = below then above else below
  if inside first && first ≠ 0 then some ⟨first, unit⟩
  else if inside second && second ≠ 0 then some ⟨second, unit⟩
  else none

/-- The first hit on grids from `unit` downwards, at most `count` of them. -/
def Binary.firstOnGrid? (b : Binary) (unit : Int) : (count : Nat) → Option Decimal
  | 0 => none
  | count + 1 =>
    match b.onGrid? unit with
    | some d => some d
    | none => firstOnGrid? b (unit - 1) count

/-- A decimal without trailing zeros, at most `count` of them. -/
def Decimal.reduced (d : Decimal) : (count : Nat) → Decimal
  | 0 => d
  | count + 1 =>
    if d.digits % 10 = 0 && d.digits ≠ 0 then
      Decimal.reduced ⟨d.digits / 10, d.exponent + 1⟩ count
    else d

/-- The shortest decimal that reads back as a double that is not zero. Seventeen digits always
do. -/
def Binary.shortest (b : Binary) : Decimal :=
  let (n, d) := scaled b.significand b.exponent 0
  ((b.firstOnGrid? (leadingExponent n d) 20).getD ⟨b.significand, b.exponent⟩).reduced 20

/-- How doubles are written. -/
structure FloatFormat where
  /-- The least decimal exponent of the first digit that is written without an exponent. -/
  positionalFrom : Int
  /-- The first decimal exponent that is written with an exponent again. -/
  positionalBelow : Int
deriving Repr

/-- A decimal in the given format, without a sign. Positional text always has a point. -/
def Decimal.render (f : FloatFormat) (d : Decimal) : String :=
  let digits := Nat.toDigits 10 d.digits
  let lead := Int.ofNat digits.length - 1 + d.exponent
  String.ofList <|
    if f.positionalFrom ≤ lead ∧ lead < f.positionalBelow then
      if 0 ≤ d.exponent then digits ++ List.replicate d.exponent.toNat '0' ++ ['.', '0']
      else if 0 ≤ lead then
        digits.take (lead.toNat + 1) ++ '.' :: digits.drop (lead.toNat + 1)
      else '0' :: '.' :: List.replicate (-lead - 1).toNat '0' ++ digits
    else
      let mantissa :=
        match digits with
        | [] => []
        | [c] => [c]
        | c :: rest => c :: '.' :: rest
      mantissa ++ ['e', if lead < 0 then '-' else '+'] ++ Nat.toDigits 10 lead.natAbs

/-- Doubles in documents: exponents from 16 on and below −5 are written as such. -/
def documentFormat : FloatFormat := ⟨-5, 16⟩

/-- The shortest text of a double that reads back as it; nothing for NaN and the infinities. -/
def shortestText? (x : Float) : Option String :=
  (Binary.ofFloat? x).map fun b =>
    let body := if b.significand = 0 then "0.0" else b.shortest.render documentFormat
    if b.negative then "-" ++ body else body

end Concord.Number
