/-
A plan compared with itself. Every scenario is aligned with itself at score one, no
scenario is missing or extra, all assertions match, and the verdict is exact
(`compare_self`). Scores are fractions, so that nothing is rounded.
-/
import Concord.Proofs.Equivalence.AssertionMatch
import Concord.Proofs.Equivalence.Report
import Concord.Proofs.Equivalence.Similarity
import Concord.Proofs.Equivalence.Verdict

namespace Concord.Equivalence

theorem threshold_le_self (s : Scenario) : threshold ≤ (scenarioScore s s : Rat) := by
  rw [scenarioScore_self]
  simp only [threshold, Score.ratio_rat]
  norm_num

theorem not_self_lt (s t : Scenario) : ¬(scenarioScore s s : Rat) < scenarioScore s t := by
  rw [scenarioScore_self]
  exact not_lt.2 (scenarioScore_le_one s t)

theorem alignScenarios_self (ss : List Scenario) :
    (alignScenarios ss ss : Alignment Scenario Scenario Rat) =
      ⟨ss.map fun s => (s, s, 1), [], []⟩ := by
  have h : (alignScenarios ss ss : Alignment Scenario Scenario Rat) =
      ⟨ss.map fun s => (s, s, scenarioScore s s), [], []⟩ :=
    align_self threshold_le_self not_self_lt ss
  simpa only [scenarioScore_self] using h

/-! ## Shares of assertions -/

/-- Scenarios paired with themselves. -/
def selfPairs (ss : List Scenario) : List (Pair Rat) := ss.map fun s => ⟨s.name, s.name, 1⟩

/-- Gathering the shares of scenarios paired with themselves puts one under each name. -/
theorem assertionMatches_selfPairs {p : Plan} (hp : (p.scenarios.map Scenario.name).Nodup) :
    assertionMatches p p (selfPairs p.scenarios) =
      p.scenarios.foldl (fun found s => found.insert s.name 1) .empty := by
  have hmem : ∀ m ∈ p.scenarios.map (fun s => (s, s, (1 : Rat))),
      m.1 ∈ p.scenarios ∧ m.2.1 ∈ p.scenarios := by simp
  have h := assertionMatches_pairs hp hp hmem
  rw [List.map_map, List.map_map, ← KeyMap.foldl_insert_empty, List.foldl_map] at h
  simpa only [selfPairs, pairOf, shareOf, assertionRatio_self, Function.comp_def] using h

/-- Every name is found with the share one, whether it was gathered before or is to come. -/
theorem get?_foldl_insert_ones (ss : List Scenario) (found : KeyMap Rat) (name : String)
    (h : found.get? name = some 1 ∨ name ∈ ss.map Scenario.name) :
    (ss.foldl (fun found s => found.insert s.name 1) found).get? name = some 1 := by
  induction ss generalizing found with
  | nil => simpa using h
  | cons s ss ih =>
    refine ih _ ?_
    by_cases hname : name = s.name
    · exact .inl (by rw [hname, KeyMap.get?_insert_self])
    · rw [KeyMap.get?_insert_other _ hname]
      simpa [hname] using h

/-! ## The comparison -/

/-- The shares of a plan compared with itself. -/
def selfShares (ss : List Scenario) : KeyMap Rat :=
  ss.foldl (fun found s => found.insert s.name 1) .empty

theorem selfShares_ones (ss : List Scenario) : ∀ m ∈ (selfShares ss).members, m.2 = 1 := by
  have hlist : selfShares ss = KeyMap.ofList (ss.map fun s => (s.name, 1)) := by
    rw [← KeyMap.foldl_insert_empty, List.foldl_map, selfShares]
  intro m hm
  rw [hlist] at hm
  obtain ⟨s, -, rfl⟩ := List.mem_map.1 (KeyMap.mem_of_mem_sortMembers hm)
  rfl

theorem get?_selfShares {ss : List Scenario} {s : Scenario} (hs : s ∈ ss) :
    (selfShares ss).get? s.name = some 1 :=
  get?_foldl_insert_ones ss .empty s.name (.inr (List.mem_map_of_mem hs))

theorem selfShares_ne_nil {ss : List Scenario} (h : ss ≠ []) : (selfShares ss).members ≠ [] := by
  obtain ⟨s, hs⟩ := List.exists_mem_of_ne_nil ss h
  exact List.ne_nil_of_mem (KeyMap.mem_members_of_get? (get?_selfShares hs))

/-- The parts of a plan compared with itself. -/
theorem compareSound_self {p : Plan} (hp : (p.scenarios.map Scenario.name).Nodup) :
    let c : Comparison Rat := compareSound p p
    c.matched = selfPairs p.scenarios ∧ c.missing = [] ∧ c.extra = [] ∧
      c.assertionMatch = selfShares p.scenarios ∧ c.matchShare = 1 ∧ c.meanAssertionMatch = 1 := by
  have hmatched : ((p.scenarios.map fun s => (s, s, (1 : Rat))).map
      fun m => (⟨m.1.name, m.2.1.name, m.2.2⟩ : Pair Rat)) = selfPairs p.scenarios := by
    simp [selfPairs]
  have hshares : assertionMatches p p (selfPairs p.scenarios) = selfShares p.scenarios :=
    assertionMatches_selfPairs hp
  simp only [compareSound, alignScenarios_self, hmatched, hshares, List.map_nil, true_and]
  by_cases hempty : p.scenarios = []
  · simp [hempty, selfShares, KeyMap.empty]
  · have hcount : p.scenarios.length ≠ 0 := by simpa using hempty
    have hne : (selfShares p.scenarios).members.map Prod.snd ≠ [] := by
      simpa using selfShares_ne_nil hempty
    have hones : ∀ x ∈ (selfShares p.scenarios).members.map Prod.snd, x = 1 := by
      intro x hx
      obtain ⟨m, hm, rfl⟩ := List.mem_map.1 hx
      exact selfShares_ones _ m hm
    refine ⟨?_, ?_⟩
    · rw [if_neg hcount, selfPairs, List.length_map]
      exact Score.ratio_self hcount
    · rw [if_neg (by simpa using hne)]
      exact mean_ones hones hne

/-- **A plan stands in for itself exactly.** Every scenario is aligned with itself at score one, in
order; nothing is missing or extra; all assertions of every scenario match; and the coverage does
not change. -/
theorem compare_self (p : Plan) (h : p.defect? = none) :
    ∃ c : Comparison Rat, compare p p = .ok c ∧ c.level = .exact ∧
      c.matched = p.scenarios.map (fun s => ⟨s.name, s.name, 1⟩) ∧ c.missing = [] ∧ c.extra = [] ∧
      (∀ m ∈ c.assertionMatch.members, m.2 = 1) ∧
      (∀ s ∈ p.scenarios, c.assertionMatch.get? s.name = some 1) ∧ c.coverageDelta = 0 := by
  have hp := ((Plan.defect?_eq_none_iff p).1 h).2
  obtain ⟨hmatched, hmissing, hextra, hshares, hshare, hmean⟩ := compareSound_self hp
  refine ⟨compareSound p p, by simp [compare, h], ?_, hmatched, hmissing, hextra, ?_, ?_, ?_⟩
  · have hlevel : (compareSound p p : Comparison Rat).level =
        verdict (compareSound p p : Comparison Rat).matchShare (compareSound p p).meanAssertionMatch
          (compareSound p p : Comparison Rat).extra.length := rfl
    rw [hlevel, hshare, hmean, hextra]
    exact verdict_one
  · rw [hshares]
    exact selfShares_ones p.scenarios
  · intro s hs
    rw [hshares]
    exact get?_selfShares hs
  · exact coverageDelta_self p.assertionCount

/-- Two scenarios whose names differ by blanks and letter case alone, with an assertion that is
made twice. -/
def twins : Plan where
  name := "leads"
  scenarios := [
    { name := "Closes lead", assertions := [.equal "lead.total" (.int 3), .equal "total" (.int 3)] },
    { name := " closes LEAD", assertions := [.raising "lead.close()" "StateError"] }]

theorem compare_self_twins : twins.defect? = none ∧
    ∃ c : Comparison Rat, compare twins twins = .ok c ∧ c.level = .exact ∧
      c.matched = [⟨"Closes lead", "Closes lead", 1⟩, ⟨" closes LEAD", " closes LEAD", 1⟩] := by
  have hsound : twins.defect? = none := by decide
  obtain ⟨c, hc, hlevel, hmatched, -⟩ := compare_self twins hsound
  exact ⟨hsound, c, hc, hlevel, hmatched⟩

end Concord.Equivalence
