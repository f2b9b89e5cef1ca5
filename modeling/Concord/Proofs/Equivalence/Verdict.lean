/-
Means and verdicts of exact shares. The sum that a mean takes is the sum of its shares
(`total_eq_sum`), so larger shares have a larger mean (`meanShare_mono`), and a verdict
does not get stronger when the mean falls (`rank_verdict_mono`).
-/
import Concord.Equivalence.Verdict
import Concord.Proofs.Equivalence.Score
import Mathlib.Algebra.Order.BigOperators.Group.List

namespace Concord.Equivalence

/-! ## Means -/

/-- The mean share of matched assertions of a plan with a number of scenarios. -/
def meanShare {α : Type} [Score α] (count : Nat) (shares : List α) : α :=
  if shares.isEmpty then (if count = 0 then Score.one else Score.zero)
  else total shares / Score.ratio shares.length 1

section

variable {α : Type} [Score α]

theorem matchShare_compareSound (reference candidate : Plan) :
    (compareSound reference candidate : Comparison α).matchShare =
      if reference.scenarios.length = 0 then Score.one
      else Score.ratio (compareSound reference candidate : Comparison α).matched.length
        reference.scenarios.length := rfl

theorem level_compareSound (reference candidate : Plan) :
    (compareSound reference candidate : Comparison α).level =
      verdict (compareSound reference candidate : Comparison α).matchShare
        (meanShare reference.scenarios.length
          ((compareSound reference candidate : Comparison α).assertionMatch.members.map Prod.snd))
        (compareSound reference candidate : Comparison α).extra.length := rfl

end

theorem total_eq_sum (shares : List Rat) : total shares = shares.sum := by
  rw [List.sum_eq_foldl, total, Score.zero_rat]

theorem mean_ones {shares : List Rat} (h : ∀ x ∈ shares, x = 1) (hne : shares ≠ []) :
    total shares / Score.ratio shares.length 1 = 1 := by
  have hlen : (shares.length : Rat) ≠ 0 := by simpa using hne
  have htotal : total shares = shares.length := by
    rw [total_eq_sum, List.eq_replicate_iff.2 ⟨rfl, h⟩]
    simp
  rw [htotal, Score.ratio_rat, Int.cast_natCast, Nat.cast_one, div_one, div_self hlen]

/-- Of as many shares, larger ones have a larger mean. -/
theorem meanShare_mono (count : Nat) {xs ys : List Rat} (h : List.Forall₂ (fun x y => x ≤ y) xs ys) :
    meanShare count xs ≤ meanShare count ys := by
  cases h with
  | nil => exact le_refl _
  | cons hxy hrest =>
    rename_i x y xs ys
    have hlen : (x :: xs).length = (y :: ys).length := by simp [hrest.length_eq]
    have hsum : (x :: xs).sum ≤ (y :: ys).sum := List.Forall₂.sum_le_sum (.cons hxy hrest)
    simp only [meanShare, List.isEmpty_cons, Bool.false_eq_true, if_false, total_eq_sum, hlen]
    exact div_le_div_of_nonneg_right hsum (Score.ratio_nonneg _ _)

/-! ## Verdicts -/

theorem coverageDelta_self (n : Nat) : (coverageDelta n n : Rat) = 0 := by
  unfold coverageDelta
  split <;> simp

theorem verdict_one : verdict (1 : Rat) 1 0 = .exact := by
  unfold verdict
  rw [if_pos]
  simp only [Score.one_rat, Score.ratio_rat]
  norm_num

/-- A verdict does not get stronger when the mean share of matched assertions falls. -/
theorem rank_verdict_mono {mean mean' : Rat} (h : mean' ≤ mean) (share : Rat) (extra : Nat) :
    (verdict share mean extra).rank ≤ (verdict share mean' extra).rank := by
  have hreached : ∀ bound : Rat, bound ≤ mean' → bound ≤ mean := fun _ hb => le_trans hb h
  unfold verdict
  by_cases hexact : Score.one ≤ share ∧ Score.ratio 95 100 ≤ mean ∧ extra = 0
  · rw [if_pos hexact]
    exact Nat.zero_le _
  · have hexact' : ¬(Score.one ≤ share ∧ Score.ratio 95 100 ≤ mean' ∧ extra = 0) :=
      fun h' => hexact ⟨h'.1, hreached _ h'.2.1, h'.2.2⟩
    rw [if_neg hexact, if_neg hexact']
    by_cases hstrong : Score.ratio 9 10 ≤ share ∧ Score.ratio 8 10 ≤ mean
    · rw [if_pos hstrong]
      split
      · exact Nat.le_refl _
      · split <;> decide
    · have hstrong' : ¬(Score.ratio 9 10 ≤ share ∧ Score.ratio 8 10 ≤ mean') :=
        fun h' => hstrong ⟨h'.1, hreached _ h'.2⟩
      rw [if_neg hstrong, if_neg hstrong']

end Concord.Equivalence
