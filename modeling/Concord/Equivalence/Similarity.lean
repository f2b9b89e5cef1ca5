/-
How alike two texts and two scenarios are, from nothing to one.
-/
import Concord.Equivalence.EditDistance
import Concord.Equivalence.Score
import Concord.Scenario.Basic
import Concord.Text.Case

namespace Concord.Equivalence

open Text

variable {α : Type} [Score α]

/-- One minus the share of characters to change; blanks at the ends and letter case do not count. -/
def similarity (a b : String) : α :=
  let a := lower (trim a.toList)
  let b := lower (trim b.toList)
  let longest := max a.length b.length
  if longest = 0 then Score.one else Score.one - Score.ratio (editDistance a b) longest

/-- How well a candidate scenario fits a reference: half by name, three tenths by description, two
tenths by category. -/
def scenarioScore (reference candidate : Scenario) : α :=
  let category : α := if reference.category = candidate.category then Score.one else Score.zero
  Score.ratio 5 10 * similarity reference.name candidate.name +
    Score.ratio 3 10 * similarity reference.description candidate.description +
    Score.ratio 2 10 * category

/-- The least score of scenarios that are aligned. -/
def threshold : α := Score.ratio 6 10

end Concord.Equivalence
