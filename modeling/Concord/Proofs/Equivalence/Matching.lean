/-
First-fit matching is optimal. The pairs that it takes are a pairing of items that are the
same, each taken once (`exists_pairing`). Where to be the same is to have the same class,
their number is the size of what the classes of the two lists have in common (`hits_eq_card`),
so that no pairing is larger and no order of either list matters (`firstFit_optimal`). The
share of counterparts is this number divided by the number of references.
-/
import Concord.Proofs.Equivalence.AssertionMatch
import Concord.Proofs.Number.UnitInterval

namespace Concord.Equivalence

/-! ## Pairings -/

variable {ρ γ : Type}

/-- Pairs of items that are the same, one of each list, in which every item is taken once. -/
structure IsPairing (same : ρ → ρ → Bool) (rs cs : List ρ) (pairs : List (ρ × ρ)) : Prop where
  left : (pairs.map Prod.fst).Subperm rs
  right : (pairs.map Prod.snd).Subperm cs
  same : ∀ p ∈ pairs, same p.1 p.2 = true

theorem IsPairing.skip {same : ρ → ρ → Bool} {rs cs : List ρ} {pairs : List (ρ × ρ)}
    (h : IsPairing same rs cs pairs) (r : ρ) : IsPairing same (r :: rs) cs pairs where
  left := h.left.trans (List.sublist_cons_self r rs).subperm
  right := h.right
  same := h.same

theorem IsPairing.cons {same : ρ → ρ → Bool} {rs before after : List ρ} {pairs : List (ρ × ρ)} {r c : ρ}
    (h : IsPairing same rs (before ++ after) pairs) (hsame : same r c = true) :
    IsPairing same (r :: rs) (before ++ c :: after) ((r, c) :: pairs) where
  left := (List.subperm_cons r).2 h.left
  right := ((List.subperm_cons c).2 h.right).trans List.perm_middle.symm.subperm
  same := by
    intro p hp
    rcases List.mem_cons.1 hp with rfl | hp
    · exact hsame
    · exact h.same p hp

/-- What first fit takes is a pairing. -/
theorem exists_pairing (same : ρ → ρ → Bool) (rs cs : List ρ) :
    ∃ pairs, IsPairing same rs cs pairs ∧ pairs.length = hits same rs cs := by
  induction rs generalizing cs with
  | nil => exact ⟨[], ⟨List.nil_subperm, List.nil_subperm, by simp⟩, rfl⟩
  | cons r rs ih =>
    obtain ⟨pairs, hpairs, hlength⟩ := ih (cs.eraseP (same r))
    rw [hits_cons, ← hlength]
    by_cases hany : cs.any (same r) = true
    · obtain ⟨x, hx, hxsame⟩ := List.any_eq_true.1 hany
      obtain ⟨c, before, after, -, hsame, rfl, herase⟩ := List.exists_of_eraseP hx hxsame
      rw [herase] at hpairs
      exact ⟨(r, c) :: pairs, hpairs.cons hsame, by rw [if_pos hany, List.length_cons]⟩
    · have hnone : ∀ c ∈ cs, ¬same r c = true := by simpa using hany
      rw [List.eraseP_of_forall_not hnone] at hpairs
      exact ⟨pairs, hpairs.skip r, by rw [if_neg hany, Nat.add_zero]⟩

/-! ## Classes -/

section Classes

variable {same : ρ → ρ → Bool} {f : ρ → γ} (hsame : ∀ a b, same a b = true ↔ f a = f b)

include hsame

theorem any_same_iff (r : ρ) (cs : List ρ) : cs.any (same r) = true ↔ f r ∈ cs.map f := by
  rw [List.any_eq_true, List.mem_map]
  exact exists_congr fun c => and_congr_right fun _ => (hsame r c).trans eq_comm

variable [DecidableEq γ]

theorem map_eraseP_same (r : ρ) (cs : List ρ) : (cs.eraseP (same r)).map f = (cs.map f).erase (f r) := by
  have hclass : same r = (fun x => f r == x) ∘ f := by
    funext c
    rw [Bool.eq_iff_iff, hsame, Function.comp, beq_iff_eq]
  rw [List.erase_eq_eraseP, List.eraseP_map, hclass]

/-- First fit takes as many items as the classes of both lists have in common. -/
theorem hits_eq_card (rs cs : List ρ) :
    hits same rs cs = ((rs.map f : Multiset γ) ∩ (cs.map f : Multiset γ)).card := by
  induction rs generalizing cs with
  | nil => simp [hits]
  | cons r rs ih =>
    rw [hits_cons, ih, map_eraseP_same hsame, ← Multiset.coe_erase, List.map_cons, ← Multiset.cons_coe]
    by_cases hmem : f r ∈ cs.map f
    · rw [if_pos ((any_same_iff hsame r cs).2 hmem), Multiset.cons_inter_of_pos _ hmem, Multiset.card_cons]
    · rw [if_neg (mt (any_same_iff hsame r cs).1 hmem), Multiset.cons_inter_of_neg _ hmem,
        Multiset.erase_of_notMem hmem, Nat.add_zero]

/-- No pairing is larger. -/
theorem IsPairing.length_le {rs cs : List ρ} {pairs : List (ρ × ρ)} (h : IsPairing same rs cs pairs) :
    pairs.length ≤ hits same rs cs := by
  have hclasses : (pairs.map Prod.fst).map f = (pairs.map Prod.snd).map f := by
    rw [List.map_map, List.map_map]
    exact List.map_congr_left fun p hp => (hsame _ _).1 (h.same p hp)
  have hleft : (((pairs.map Prod.fst).map f : List γ) : Multiset γ) ≤ (rs.map f : List γ) :=
    Multiset.map_le_map (f := f) (Multiset.coe_le.2 h.left)
  have hright : (((pairs.map Prod.fst).map f : List γ) : Multiset γ) ≤ (cs.map f : List γ) := by
    rw [hclasses]
    exact Multiset.map_le_map (f := f) (Multiset.coe_le.2 h.right)
  have hcard := Multiset.card_le_card (Multiset.le_inter hleft hright)
  rw [hits_eq_card hsame]
  simpa using hcard

end Classes

/-! ## Assertions -/

/-- To say the same, as the equivalence of which the classes are counted. -/
instance sameSetoid : Setoid Assertion := ⟨fun a b => sameAssertion a b = true, sameAssertion_equivalence⟩

instance (a b : Assertion) : Decidable (a ≈ b) := inferInstanceAs (Decidable (sameAssertion a b = true))

/-- The class of an assertion: all that say the same. -/
def classOf (a : Assertion) : Quotient sameSetoid := ⟦a⟧

theorem sameAssertion_iff_class (a b : Assertion) : sameAssertion a b = true ↔ classOf a = classOf b :=
  (@Quotient.eq _ sameSetoid a b).symm

/-- The classes of some assertions. -/
def classes (assertions : List Assertion) : Finset (Quotient sameSetoid) := (assertions.map classOf).toFinset

/-- How many of some assertions belong to a class. -/
def occurrences (q : Quotient sameSetoid) (assertions : List Assertion) : Nat :=
  (assertions.map classOf).count q

variable {reference candidate : List Assertion}

theorem hits_eq_sum (reference candidate : List Assertion) : hits sameAssertion reference candidate =
    ∑ q ∈ classes (reference ++ candidate), min (occurrences q reference) (occurrences q candidate) := by
  rw [hits_eq_card sameAssertion_iff_class, ← Multiset.sum_count_eq_card (s := classes (reference ++ candidate))]
  · refine Finset.sum_congr rfl fun q _ => ?_
    rw [Multiset.count_inter, Multiset.coe_count, Multiset.coe_count, occurrences, occurrences]
  · intro q hq
    have hleft : q ∈ reference.map classOf := Multiset.mem_coe.1 (Multiset.mem_inter.1 hq).1
    rw [classes, List.mem_toFinset, List.map_append]
    exact List.mem_append_left _ hleft

theorem hits_perm {reference' candidate' : List Assertion} (hr : reference.Perm reference')
    (hc : candidate.Perm candidate') :
    hits sameAssertion reference' candidate' = hits sameAssertion reference candidate := by
  rw [hits_eq_card sameAssertion_iff_class, hits_eq_card sameAssertion_iff_class]
  rw [Multiset.coe_eq_coe.2 (hr.map _), Multiset.coe_eq_coe.2 (hc.map _)]

section Share

variable {α : Type} [Score α]

theorem assertionRatio_of_ne_nil (h : reference ≠ []) (candidate : List Assertion) :
    (assertionRatio reference candidate : α) =
      Score.ratio (hits sameAssertion reference candidate) reference.length := by
  rw [assertionRatio, if_neg (by simpa using h)]

theorem assertionRatio_nil (candidate : List Assertion) :
    (assertionRatio [] candidate : α) = if candidate = [] then Score.one else Score.zero := by
  cases candidate <;> simp [assertionRatio]

/-- The share of counterparts does not depend on the order of the assertions. -/
theorem assertionRatio_perm {reference' candidate' : List Assertion}
    (hr : reference.Perm reference') (hc : candidate.Perm candidate') :
    (assertionRatio reference' candidate' : α) = assertionRatio reference candidate := by
  rw [assertionRatio, assertionRatio, hr.isEmpty_eq, hc.isEmpty_eq, hr.length_eq, hits_perm hr hc]

end Share

theorem hits_le_length (reference candidate : List Assertion) :
    hits sameAssertion reference candidate ≤ reference.length := by
  obtain ⟨pairs, hpairs, hlength⟩ := exists_pairing sameAssertion reference candidate
  rw [← hlength, ← pairs.length_map Prod.fst]
  exact hpairs.left.length_le

theorem assertionRatio_rat (reference candidate : List Assertion) :
    0 ≤ (assertionRatio reference candidate : Rat) ∧ (assertionRatio reference candidate : Rat) ≤ 1 := by
  by_cases hne : reference = []
  · subst hne
    rw [assertionRatio_nil]
    split <;> simp
  · have hpos : reference.length ≠ 0 := mt List.length_eq_zero_iff.1 hne
    rw [assertionRatio_of_ne_nil hne]
    refine ⟨Score.ratio_nonneg _ _, ?_⟩
    rw [← Score.ratio_self hpos]
    exact Score.ratio_le_ratio (hits_le_length reference candidate) _

/-- A share of whole numbers as a double is the double nearest to their quotient. -/
theorem floatRatio_natCast (n d : Nat) : (Score.ratio n d : Float) = Number.nearest n d := by
  have hsign : ¬(n : Int) < 0 := by omega
  have hfloat : (Score.ratio n d : Float) = floatRatio n d := rfl
  rw [hfloat, floatRatio, if_neg hsign, Int.natAbs_natCast]

theorem floatRatio_le_one {n d : Nat} (h : n ≤ d) :
    0 ≤ (Score.ratio n d : Float) ∧ (Score.ratio n d : Float) ≤ 1 := by
  rw [floatRatio_natCast]
  exact Number.nearest_le_one h

theorem assertionRatio_float (reference candidate : List Assertion) :
    0 ≤ (assertionRatio reference candidate : Float) ∧ (assertionRatio reference candidate : Float) ≤ 1 := by
  by_cases hne : reference = []
  · subst hne
    rw [assertionRatio_nil]
    split
    · exact floatRatio_le_one (n := 1) (d := 1) (by decide)
    · exact floatRatio_le_one (n := 0) (d := 1) (by decide)
  · rw [assertionRatio_of_ne_nil hne]
    exact floatRatio_le_one (hits_le_length reference candidate)

/-- **First-fit matching of assertions is optimal.** To say the same is an equivalence, so that the number
of counterparts that are found is the sum over the classes of the smaller number of occurrences, and no
one-to-one pairing is larger. The share of counterparts is this number divided by the number of references,
in doubles the one nearest to the quotient; without references it is one if there are no candidates
either, and zero otherwise. Hence it lies between zero and one and does not depend on the order of either
list. -/
theorem firstFit_optimal : (Equivalence fun a b => sameAssertion a b = true) ∧
    ∀ reference candidate : List Assertion,
      hits sameAssertion reference candidate =
        ∑ q ∈ classes (reference ++ candidate), min (occurrences q reference) (occurrences q candidate) ∧
      IsGreatest {n | ∃ pairs, IsPairing sameAssertion reference candidate pairs ∧ pairs.length = n}
        (hits sameAssertion reference candidate) ∧
      (reference ≠ [] →
        (assertionRatio reference candidate : Float) =
          Number.nearest (hits sameAssertion reference candidate) reference.length ∧
        (assertionRatio reference candidate : Rat) =
          (hits sameAssertion reference candidate : Rat) / reference.length) ∧
      (reference = [] →
        (assertionRatio reference candidate : Float) = (if candidate = [] then 1 else 0) ∧
        (assertionRatio reference candidate : Rat) = if candidate = [] then 1 else 0) ∧
      (∀ reference' candidate', reference.Perm reference' → candidate.Perm candidate' →
        (assertionRatio reference' candidate' : Float) = assertionRatio reference candidate ∧
        (assertionRatio reference' candidate' : Rat) = assertionRatio reference candidate) ∧
      (0 ≤ (assertionRatio reference candidate : Float) ∧ (assertionRatio reference candidate : Float) ≤ 1) ∧
      0 ≤ (assertionRatio reference candidate : Rat) ∧ (assertionRatio reference candidate : Rat) ≤ 1 := by
  refine ⟨sameAssertion_equivalence, fun reference candidate => ⟨hits_eq_sum reference candidate, ⟨?_, ?_⟩,
    ?_, ?_, ?_, assertionRatio_float reference candidate, assertionRatio_rat reference candidate⟩⟩
  · exact exists_pairing sameAssertion reference candidate
  · rintro n ⟨pairs, hpairs, rfl⟩
    exact hpairs.length_le sameAssertion_iff_class
  · intro hne
    rw [assertionRatio_of_ne_nil hne, assertionRatio_of_ne_nil hne, floatRatio_natCast, Score.ratio_rat,
      Int.cast_natCast]
    exact ⟨rfl, rfl⟩
  · rintro rfl
    rw [assertionRatio_nil, assertionRatio_nil, Score.one_rat, Score.zero_rat]
    exact ⟨rfl, rfl⟩
  · intro reference' candidate' hr hc
    exact ⟨assertionRatio_perm hr hc, assertionRatio_perm hr hc⟩

/-- `total == 1`. -/
def wholeTotal : Assertion := .equal "total" (.int 1)

/-- `self.Total == 1.0`. -/
def doubleTotal : Assertion := .equal "self.Total" (.float 1.0)

/-- Two ways to write one assertion are taken once each, in whatever order they stand: against one of them
the other is left over. -/
theorem firstFit_optimal_totals :
    ([wholeTotal, doubleTotal].Perm [doubleTotal, wholeTotal] ∧ [doubleTotal].Perm [doubleTotal] ∧
      (assertionRatio [doubleTotal, wholeTotal] [doubleTotal] : Float) =
        assertionRatio [wholeTotal, doubleTotal] [doubleTotal]) ∧
    ([wholeTotal, doubleTotal] ≠ [] ∧
      (assertionRatio [wholeTotal, doubleTotal] [doubleTotal] : Float) = 0.5 ∧
      (assertionRatio [wholeTotal, doubleTotal] [doubleTotal] : Rat) = 1 / 2) ∧
    (assertionRatio [] [doubleTotal] : Float) = 0 ∧ (assertionRatio [] [doubleTotal] : Rat) = 0 := by
  have hr : [wholeTotal, doubleTotal].Perm [doubleTotal, wholeTotal] := .swap _ _ _
  have hhits : hits sameAssertion [wholeTotal, doubleTotal] [doubleTotal] = 1 := by decide +kernel
  have hhalf : Number.nearest 1 2 = 0.5 := by decide +kernel
  obtain ⟨-, -, hvalue, -, hperm, -⟩ := firstFit_optimal.2 [wholeTotal, doubleTotal] [doubleTotal]
  obtain ⟨hfloat, hrat⟩ := hvalue (List.cons_ne_nil _ _)
  obtain ⟨-, -, -, hempty, -⟩ := firstFit_optimal.2 [] [doubleTotal]
  rw [hhits] at hfloat hrat
  exact ⟨⟨hr, .refl _, (hperm _ _ hr (.refl _)).1⟩, ⟨List.cons_ne_nil _ _, hfloat.trans hhalf, by simpa using hrat⟩,
    by simpa using hempty rfl⟩

end Concord.Equivalence
