/-
Scores as fractions. The operations of `Score` are those of the field of fractions,
so that what is proved of scores is proved without rounding.
-/
import Concord.Equivalence.Score
import Mathlib.Algebra.Order.Field.Rat
import Mathlib.Tactic.FieldSimp
import Mathlib.Tactic.Linarith
import Mathlib.Tactic.NormNum
import Mathlib.Tactic.Positivity

namespace Concord.Score

@[simp] theorem ratio_rat (n : Int) (d : Nat) : (Score.ratio n d : Rat) = (n : Rat) / (d : Rat) := rfl

@[simp] theorem zero_rat : (Score.zero : Rat) = 0 := by simp [Score.zero]

@[simp] theorem one_rat : (Score.one : Rat) = 1 := by simp [Score.one]

theorem ratio_self {n : Nat} (h : n ≠ 0) : (Score.ratio n n : Rat) = 1 := by
  have hn : (n : Rat) ≠ 0 := by exact_mod_cast h
  rw [ratio_rat, Int.cast_natCast, div_self hn]

theorem ratio_nonneg (n d : Nat) : (0 : Rat) ≤ Score.ratio n d := by
  rw [ratio_rat, Int.cast_natCast]
  positivity

theorem ratio_le_ratio {m n : Nat} (h : m ≤ n) (d : Nat) :
    (Score.ratio m d : Rat) ≤ Score.ratio n d := by
  simp only [ratio_rat, Int.cast_natCast]
  exact div_le_div_of_nonneg_right (Nat.cast_le.2 h) (Nat.cast_nonneg d)

end Concord.Score
