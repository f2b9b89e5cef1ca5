/-
Numbers from text: whole numbers in a fixed range, and decimals rounded to the
nearest double.
-/
import Concord.Text.Letter
import Concord.Number.Nearest
import Concord.Number.Shortest

namespace Concord.Number

open Text

/-- The value of a run of decimal digits. -/
def ofDigits (ds : Text) : Nat := ds.foldl (fun n c => n * 10 + (c.toNat - '0'.toNat)) 0

def minInt64 : Int := -Int.ofNat (Nat.pow 2 63)

def maxInt64 : Int := Int.ofNat (Nat.pow 2 63) - 1

def maxNat64 : Nat := Nat.pow 2 64 - 1

/-- A sign and the text after it; `true` is minus. -/
def signOf : Text → Bool × Text
  | '-' :: t => (true, t)
  | '+' :: t => (false, t)
  | t => (false, t)

/-- A whole number with an optional sign in the range of 64-bit integers. -/
def int64? (t : Text) : Option Int :=
  let (negative, ds) := signOf t
  if ds.isEmpty || !ds.all isAsciiDigit then none
  else
    let n := Int.ofNat (ofDigits ds)
    let n := if negative then -n else n
    if minInt64 ≤ n ∧ n ≤ maxInt64 then some n else none

/-- `digits * 10 ^ exponent` rounded to the nearest double. Far outside the range of doubles the
result is zero or infinite, whatever the digits. -/
def nearestDecimal (digits : Nat) (exponent : Int) : Float :=
  let lead := Int.ofNat (digitCount digits) + exponent
  if lead < -400 then 0
  else if 400 < lead then nearest (Nat.pow 10 400) 1
  else nearest (digits * Nat.pow 10 exponent.toNat) (Nat.pow 10 (-exponent).toNat)

/-- The digits and the exponent of an unsigned decimal: digits with at most one point among or
after them, and an optional exponent. -/
def decimal? (t : Text) : Option (Nat × Int) := do
  let whole := t.takeWhile isAsciiDigit
  let t := t.drop whole.length
  let (fraction, t) :=
    match t with
    | '.' :: u => (u.takeWhile isAsciiDigit, u.dropWhile isAsciiDigit)
    | _ => ([], t)
  if whole.isEmpty && fraction.isEmpty then none
  let exponent ←
    match t with
    | [] => some 0
    | c :: u =>
      let (negative, ds) := signOf u
      if (c == 'e' || c == 'E') && !ds.isEmpty && ds.all isAsciiDigit then
        some (if negative then -Int.ofNat (ofDigits ds) else Int.ofNat (ofDigits ds))
      else none
  return (ofDigits (whole ++ fraction), exponent - Int.ofNat fraction.length)

/-- A decimal with an optional sign, rounded to the nearest double; nothing if it is not finite. -/
def finiteFloat? (t : Text) : Option Float := do
  let (negative, u) := signOf t
  let (digits, exponent) ← decimal? u
  let x := nearestDecimal digits exponent
  if x.isInf then none
  return if negative then -x else x

end Concord.Number
