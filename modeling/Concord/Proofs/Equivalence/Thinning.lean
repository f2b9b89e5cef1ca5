/-
Fewer assertions never make a stronger verdict. A candidate from which assertions are
taken away is still aligned as before, because scenarios are scored by name, description
and category alone (`alignScenarios_thinned`). No share of matched assertions grows
(`shares_thinned`), so neither does their mean, and the verdict is no stronger
(`compare_thinned`).
-/
import Concord.Proofs.Equivalence.AssertionMatch
import Concord.Proofs.Equivalence.Report
import Concord.Proofs.Equivalence.Verdict

namespace Concord

/-- The first scenario is the second with only some of its assertions. -/
def Scenario.ThinnedFrom (s t : Scenario) : Prop :=
  ∃ kept : List Assertion, kept.Sublist t.assertions ∧ s = { t with assertions := kept }

/-- The first plan is the second with only some of the assertions of each scenario. -/
def Plan.ThinnedFrom (p q : Plan) : Prop :=
  ∃ kept : List Scenario, List.Forall₂ Scenario.ThinnedFrom kept q.scenarios ∧
    p = { q with scenarios := kept }

namespace Plan

theorem SoundScenario.thinned {s t : Scenario} (ht : SoundScenario t) (h : s.ThinnedFrom t) :
    SoundScenario s := by
  obtain ⟨kept, hsub, rfl⟩ := h
  refine ⟨ht.named, ?_⟩
  have hall := List.find?_eq_none.1 ht.identified
  exact List.find?_eq_none.2 fun a ha => hall a (hsub.subset ha)

theorem sound_thinned {ss ts : List Scenario} (h : List.Forall₂ Scenario.ThinnedFrom ss ts)
    (hts : ∀ t ∈ ts, SoundScenario t) : ∀ s ∈ ss, SoundScenario s := by
  induction h with
  | nil => simp
  | cons hst _ ih =>
    intro s hs
    rcases List.mem_cons.1 hs with rfl | hs
    · exact (hts _ (by simp)).thinned hst
    · exact ih (fun t ht => hts t (by simp [ht])) s hs

theorem names_thinned {ss ts : List Scenario} (h : List.Forall₂ Scenario.ThinnedFrom ss ts) :
    ss.map Scenario.name = ts.map Scenario.name := by
  refine Equivalence.map_eq_map_of_forall₂ (h.imp fun s t hst => ?_)
  obtain ⟨kept, -, rfl⟩ := hst
  rfl

/-- A plan that can be compared still can when assertions are taken away. -/
theorem ThinnedFrom.defect?_eq_none {p q : Plan} (h : p.ThinnedFrom q) (hq : q.defect? = none) :
    p.defect? = none := by
  obtain ⟨kept, hkept, rfl⟩ := h
  rw [defect?_eq_none_iff] at hq ⊢
  refine ⟨sound_thinned hkept hq.1, ?_⟩
  rw [names_thinned hkept]
  exact hq.2

end Plan

namespace Equivalence

theorem scenarioScore_thinned {α : Type} [Score α] (r : Scenario) {s t : Scenario}
    (h : s.ThinnedFrom t) : (scenarioScore r s : α) = scenarioScore r t := by
  obtain ⟨kept, -, rfl⟩ := h
  rfl

/-- Alignment does not look at assertions. -/
theorem alignScenarios_thinned {α : Type} [Score α] (reference : List Scenario)
    {ss ts : List Scenario} (h : List.Forall₂ Scenario.ThinnedFrom ss ts) :
    (alignScenarios (α := α) reference ss).Related Scenario.ThinnedFrom
      (alignScenarios reference ts) := by
  have hscore : ∀ r s t, Scenario.ThinnedFrom s t → (scenarioScore r s : α) = scenarioScore r t :=
    fun r _ _ => scenarioScore_thinned r
  exact align_related hscore reference h

theorem shareOf_thinned {m n : Scenario × Scenario × Rat} (hr : m.1 = n.1)
    (hc : m.2.1.ThinnedFrom n.2.1) (hne : n.1.assertions ≠ []) :
    KeyMap.Alike (fun x y => x ≤ y) (shareOf m) (shareOf n) := by
  obtain ⟨kept, hsub, hc⟩ := hc
  refine ⟨congrArg Scenario.name hr, ?_⟩
  simp only [shareOf, hr, hc]
  exact assertionRatio_mono hne hsub

/-- The shares of a thinned candidate stand under the same names and are no larger. -/
theorem shares_thinned {reference : List Scenario} (hne : ∀ s ∈ reference, s.assertions ≠ [])
    {ss ts : List Scenario} (h : List.Forall₂ Scenario.ThinnedFrom ss ts) :
    List.Forall₂ (KeyMap.Alike fun x y => x ≤ y)
      ((alignScenarios (α := Rat) reference ss).matched.map shareOf)
      ((alignScenarios reference ts).matched.map shareOf) := by
  rw [List.forall₂_map_left_iff, List.forall₂_map_right_iff]
  have hrefs : ∀ m ∈ (alignScenarios (α := Rat) reference ss).matched, m.1 ∈ reference :=
    fun _ hm => (mem_of_mem_matched hm).1
  refine ((List.forall₂_and_left _ _).2
    ⟨hrefs, (alignScenarios_thinned reference h).matched⟩).imp ?_
  rintro m n ⟨hm, hr, hc, -⟩
  exact shareOf_thinned hr hc (hr ▸ hne m.1 hm)

/-- A comparison with the same pairs, the same extra scenarios and no larger shares is no stronger. -/
theorem rank_compareSound_mono {reference candidate thinned : Plan}
    (hmatched : (compareSound reference thinned : Comparison Rat).matched =
      (compareSound reference candidate).matched)
    (hextra : (compareSound reference thinned : Comparison Rat).extra =
      (compareSound reference candidate : Comparison Rat).extra)
    (hshares : List.Forall₂ (KeyMap.Alike fun x y => x ≤ y)
      (compareSound reference thinned : Comparison Rat).assertionMatch.members
      (compareSound reference candidate : Comparison Rat).assertionMatch.members) :
    (compareSound reference candidate : Comparison Rat).level.rank ≤
      (compareSound reference thinned : Comparison Rat).level.rank := by
  have hmean := meanShare_mono reference.scenarios.length
    (List.forall₂_map_left_iff.2 (List.forall₂_map_right_iff.2 (hshares.imp fun _ _ h => h.2)))
  rw [level_compareSound, level_compareSound, matchShare_compareSound, matchShare_compareSound,
    hmatched, hextra]
  exact rank_verdict_mono hmean _ _

/-- **Taking assertions away from a candidate never makes the verdict stronger**, as long as every
scenario of the reference asserts something. The alignment stays as it is, and no share of matched
assertions grows. -/
theorem compare_thinned (reference candidate thinned : Plan) (hreference : reference.defect? = none)
    (hne : ∀ s ∈ reference.scenarios, s.assertions ≠ []) (hcandidate : candidate.defect? = none)
    (hthinned : thinned.ThinnedFrom candidate) :
    ∃ before after : Comparison Rat, compare reference candidate = .ok before ∧
      compare reference thinned = .ok after ∧ after.matched = before.matched ∧
      after.missing = before.missing ∧ after.extra = before.extra ∧
      List.Forall₂ (KeyMap.Alike fun x y => x ≤ y) after.assertionMatch.members
        before.assertionMatch.members ∧ before.level.rank ≤ after.level.rank := by
  have hsound := hthinned.defect?_eq_none hcandidate
  have hrnames := ((Plan.defect?_eq_none_iff reference).1 hreference).2
  have hcnames := ((Plan.defect?_eq_none_iff candidate).1 hcandidate).2
  have htnames := ((Plan.defect?_eq_none_iff thinned).1 hsound).2
  obtain ⟨kept, hkept, rfl⟩ := hthinned
  have hrelated := alignScenarios_thinned (α := Rat) reference.scenarios hkept
  have hmatched :
      (compareSound reference { candidate with scenarios := kept } : Comparison Rat).matched =
        (compareSound reference candidate).matched := by
    refine map_eq_map_of_forall₂ (hrelated.matched.imp fun m n hmn => ?_)
    obtain ⟨hr, ⟨_, -, hc⟩, hs⟩ := hmn
    simp only [hr, hc, hs]
  have hextra :
      (compareSound reference { candidate with scenarios := kept } : Comparison Rat).extra =
        (compareSound reference candidate : Comparison Rat).extra :=
    Plan.names_thinned hrelated.extra
  have hshares := KeyMap.forall₂_ofList (shares_thinned hne hkept)
  rw [← assertionMatch_compareSound hrnames htnames,
    ← assertionMatch_compareSound hrnames hcnames] at hshares
  refine ⟨compareSound reference candidate, compareSound reference _,
    by simp [compare, hreference, hcandidate], by simp [compare, hreference, hsound], hmatched,
    congrArg (List.map Scenario.name) hrelated.missing, hextra, hshares,
    rank_compareSound_mono hmatched hextra hshares⟩

/-- The plan `closings` without the first assertion of one scenario and without any of the other. -/
def fewerClosings : Plan where
  name := "leads"
  scenarios := [
    { name := "closes lead", assertions := [.equal "total" (.int 3)] }, { name := "refuses lead" }]

theorem fewerClosings_thinnedFrom : fewerClosings.ThinnedFrom closings := by
  refine ⟨fewerClosings.scenarios, .cons ⟨_, ?_, rfl⟩ (.cons ⟨_, ?_, rfl⟩ .nil), rfl⟩
  · exact List.sublist_cons_self _ _
  · exact List.nil_sublist _

theorem compare_thinned_closings : closings.defect? = none ∧
    (∀ s ∈ closings.scenarios, s.assertions ≠ []) ∧ fewerClosings.ThinnedFrom closings ∧
    ∃ before after : Comparison Rat, compare closings closings = .ok before ∧
      compare closings fewerClosings = .ok after ∧ after.matched = before.matched ∧
      before.level.rank ≤ after.level.rank := by
  have hsound : closings.defect? = none := by decide
  have hne : ∀ s ∈ closings.scenarios, s.assertions ≠ [] := by simp [closings]
  obtain ⟨before, after, hbefore, hafter, hmatched, -, -, -, hlevel⟩ :=
    compare_thinned closings closings fewerClosings hsound hne hsound fewerClosings_thinnedFrom
  exact ⟨hsound, hne, fewerClosings_thinnedFrom, before, after, hbefore, hafter, hmatched, hlevel⟩

end Equivalence

end Concord
