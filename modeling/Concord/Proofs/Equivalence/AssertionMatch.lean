/-
Matching lists of assertions. Every assertion says the same as itself, so a list of
assertions matched with itself leaves none over (`assertionRatio_self`). Fewer candidates
never match more (`hits_mono`, `assertionRatio_mono`), whatever assertions are taken for
the same.
-/
import Concord.Proofs.Equivalence.Content
import Concord.Proofs.Equivalence.Score

namespace Concord.Equivalence

/-! ## Matching a list with itself -/

variable {ρ : Type}

/-- Each item of a list finds itself at the head of what is left. -/
theorem hits_self {same : ρ → ρ → Bool} (h : ∀ r, same r r = true) (xs : List ρ) :
    hits same xs xs = xs.length := by
  induction xs with
  | nil => rfl
  | cons x xs ih => simp [hits, removeFirst?, h x, ih]

theorem assertionRatio_self (assertions : List Assertion) :
    (assertionRatio assertions assertions : Rat) = 1 := by
  unfold assertionRatio
  split
  · simp_all
  · rename_i hne
    have hpos : assertions.length ≠ 0 := by simpa using hne
    rw [hits_self sameAssertion_self]
    exact Score.ratio_self hpos

/-! ## Fewer candidates -/

variable {κ : Type}

/-- The first item for which a test holds is erased, if there is one. -/
theorem removeFirst?_eq (p : κ → Bool) (cs : List κ) :
    removeFirst? p cs = if cs.any p then some (cs.eraseP p) else none := by
  induction cs with
  | nil => rfl
  | cons c rest ih =>
    simp only [removeFirst?, ih, List.any_cons, List.eraseP_cons]
    by_cases hc : p c = true
    · simp only [hc, if_true, Bool.true_or, cond_true]
    · by_cases hrest : rest.any p = true <;> simp [hc, hrest]

/-- One step of matching: whether the item finds a counterpart, and what is left for the others. -/
theorem hits_cons (same : ρ → κ → Bool) (r : ρ) (rs : List ρ) (cs : List κ) :
    hits same (r :: rs) cs =
      hits same rs (cs.eraseP (same r)) + if cs.any (same r) then 1 else 0 := by
  simp only [hits, removeFirst?_eq]
  by_cases h : cs.any (same r) = true
  · simp only [h, if_true]
  · have hnone : ∀ c ∈ cs, ¬same r c = true := by simpa using h
    simp only [h, List.eraseP_of_forall_not hnone]
    rfl

/-- Fewer candidates match no more: after every item, what is left of them is still part of what is
left of the others. -/
theorem hits_mono (same : ρ → κ → Bool) (rs : List ρ) {few many : List κ} (h : few.Sublist many) :
    hits same rs few ≤ hits same rs many := by
  induction rs generalizing few many with
  | nil => exact Nat.le_refl _
  | cons r rs ih =>
    have hrest := ih (h.eraseP (p := same r))
    have hfound : few.any (same r) = true → many.any (same r) = true := by
      simp only [List.any_eq_true]
      rintro ⟨c, hc, hsame⟩
      exact ⟨c, h.subset hc, hsame⟩
    rw [hits_cons, hits_cons]
    refine Nat.add_le_add hrest ?_
    split
    · rename_i hfew
      rw [if_pos (hfound hfew)]
    · exact Nat.zero_le _

/-- Where something is asserted, fewer candidates have no larger share of it. -/
theorem assertionRatio_mono {reference few many : List Assertion} (hne : reference ≠ [])
    (h : few.Sublist many) :
    (assertionRatio reference few : Rat) ≤ assertionRatio reference many := by
  have hempty : ¬reference.isEmpty = true := by simpa using hne
  unfold assertionRatio
  rw [if_neg hempty, if_neg hempty]
  exact Score.ratio_le_ratio (hits_mono sameAssertion reference h) reference.length

end Concord.Equivalence
