/-
Numbers in which scores and shares are computed. Doubles are what is reported;
fractions are the same quantities without rounding.
-/
import Concord.Number.Nearest

namespace Concord

/-- Numbers in which scores are computed. -/
class Score (α : Type) extends Add α, Sub α, Mul α, Div α, LT α, LE α where
  /-- A whole number divided by a positive one. -/
  ratio : Int → Nat → α
  decidableLT : DecidableLT α
  decidableLE : DecidableLE α

instance Score.instDecidableLT {α : Type} [Score α] : DecidableLT α := Score.decidableLT

instance Score.instDecidableLE {α : Type} [Score α] : DecidableLE α := Score.decidableLE

/-- A quotient of whole numbers as the nearest double. -/
def floatRatio (n : Int) (d : Nat) : Float :=
  if n < 0 then -Number.nearest n.natAbs d else Number.nearest n.natAbs d

instance : Score Float where
  ratio := floatRatio
  decidableLT := inferInstance
  decidableLE := inferInstance

instance : Score Rat where
  ratio n d := (n : Rat) / (d : Rat)
  decidableLT := inferInstance
  decidableLE := inferInstance

namespace Score

variable {α : Type} [Score α]

def zero : α := ratio 0 1

def one : α := ratio 1 1

end Score

end Concord
