/-
Bounds on similarity. A text is at edit distance zero from itself
(`editDistance_self`), so a scenario scores one against itself
(`scenarioScore_self`) and never more against another (`scenarioScore_le_one`).
-/
import Concord.Equivalence.Similarity
import Concord.Proofs.Equivalence.EditDistance
import Concord.Proofs.Equivalence.Score

namespace Concord.Equivalence

open Text

theorem similarity_le_one (a b : String) : (similarity a b : Rat) ≤ 1 := by
  unfold similarity
  dsimp only
  split
  · simp
  · have := Score.ratio_nonneg (editDistance (lower (trim a.toList)) (lower (trim b.toList)))
      (max (lower (trim a.toList)).length (lower (trim b.toList)).length)
    rw [Score.one_rat]
    linarith

theorem similarity_self (a : String) : (similarity a a : Rat) = 1 := by
  unfold similarity
  dsimp only
  split
  · simp
  · simp [editDistance_self]

/-- No candidate scores above one. -/
theorem scenarioScore_le_one (r c : Scenario) : (scenarioScore r c : Rat) ≤ 1 := by
  have hname := similarity_le_one r.name c.name
  have hdescription := similarity_le_one r.description c.description
  unfold scenarioScore
  dsimp only
  split <;> simp only [Score.ratio_rat, Score.one_rat, Score.zero_rat] <;> norm_num <;> linarith

/-- A scenario scores one against itself. -/
theorem scenarioScore_self (r : Scenario) : (scenarioScore r r : Rat) = 1 := by
  unfold scenarioScore
  dsimp only
  rw [if_pos rfl, similarity_self, similarity_self]
  simp only [Score.ratio_rat, Score.one_rat]
  norm_num

end Concord.Equivalence
