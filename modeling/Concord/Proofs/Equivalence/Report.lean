/-
A report says of its pairs what their scenarios say. Alignment works by place and the
shares of assertions are looked up by name; the two agree because plans that can be
compared have no name twice (`assertionMatches_pairs`). `report_faithful` puts this
together with when there is a report at all.
-/
import Concord.Equivalence.Report
import Concord.Proofs.Equivalence.Placement
import Concord.Proofs.Order.KeyMap
import Concord.Proofs.Scenario.Check

namespace Concord.Equivalence

variable {α : Type}

/-- Two aligned scenarios by name. -/
def pairOf (m : Scenario × Scenario × α) : Pair α := ⟨m.1.name, m.2.1.name, m.2.2⟩

variable [Score α]

/-- The share of matched assertions of two aligned scenarios, under the name of the reference. -/
def shareOf (m : Scenario × Scenario × α) : String × α :=
  (m.1.name, assertionRatio m.1.assertions m.2.1.assertions)

/-! ## Looking scenarios up again -/

/-- Where names are different, looking scenarios up by name finds the aligned ones. -/
theorem assertionMatches_pairs {reference candidate : Plan}
    (hr : (reference.scenarios.map Scenario.name).Nodup)
    (hc : (candidate.scenarios.map Scenario.name).Nodup) {ms : List (Scenario × Scenario × α)}
    (hms : ∀ m ∈ ms, m.1 ∈ reference.scenarios ∧ m.2.1 ∈ candidate.scenarios) :
    assertionMatches reference candidate (ms.map pairOf) = KeyMap.ofList (ms.map shareOf) := by
  rw [← KeyMap.foldl_insert_empty, assertionMatches, List.foldl_map, List.foldl_map]
  refine List.foldl_ext _ _ _ fun found m hm => ?_
  simp only [pairOf, Plan.scenario?_of_mem hr (hms m hm).1, Plan.scenario?_of_mem hc (hms m hm).2,
    shareOf]

/-- The shares of a comparison are those of the aligned scenarios. -/
theorem assertionMatch_compareSound {reference candidate : Plan}
    (hr : (reference.scenarios.map Scenario.name).Nodup)
    (hc : (candidate.scenarios.map Scenario.name).Nodup) :
    (compareSound reference candidate : Comparison α).assertionMatch = KeyMap.ofList
      ((alignScenarios reference.scenarios candidate.scenarios).matched.map shareOf) :=
  assertionMatches_pairs hr hc fun _ hm => mem_of_mem_matched hm

/-- Each of them is there once: no two aligned references have one name. -/
theorem members_compareSound {reference candidate : Plan}
    (hr : (reference.scenarios.map Scenario.name).Nodup)
    (hc : (candidate.scenarios.map Scenario.name).Nodup) :
    (compareSound reference candidate : Comparison α).assertionMatch.members.Perm
      ((alignScenarios reference.scenarios candidate.scenarios).matched.map shareOf) := by
  rw [assertionMatch_compareSound hr hc]
  refine KeyMap.perm_ofList ?_
  have hsub := (align_interleaves (scenarioScore (α := α)) threshold reference.scenarios
    candidate.scenarios).sublist_left
  have hnames := (hsub.map Scenario.name).nodup hr
  rw [List.map_map] at hnames ⊢
  exact hnames

/-! ## Reports -/

theorem report_eq_ok_iff {reference candidate : Plan} {r : Report} :
    report reference candidate = .ok r ↔ reference.defect? = none ∧ candidate.defect? = none ∧
      Report.ofComparison reference candidate (compareSound reference candidate) = r := by
  unfold report compare
  cases hr : reference.defect? with
  | some cause => simp [Except.map]
  | none => cases hc : candidate.defect? <;> simp [Except.map]

/-- A reference that cannot be compared is refused first. -/
theorem report_eq_error_iff {reference candidate : Plan} {failure : Failure} :
    report reference candidate = .error failure ↔
      (∃ cause, reference.defect? = some cause ∧
        failure = .context "reference specification" (.comparison cause)) ∨
      (reference.defect? = none ∧ ∃ cause, candidate.defect? = some cause ∧
        failure = .context "candidate specification" (.comparison cause)) := by
  unfold report compare
  cases hr : reference.defect? with
  | some cause => simp [Except.map, eq_comm]
  | none => cases hc : candidate.defect? <;> simp [Except.map, eq_comm]

/-- **A report is faithful to the alignment.** There is one exactly when both plans can be compared;
otherwise the comparison input is refused, the reference first. Its shares of assertions stand under
the names of the matched references, and each is that of the two scenarios that were aligned: looking
them up by name finds no other. -/
theorem report_faithful (reference candidate : Plan) :
    ((∃ r, report reference candidate = .ok r) ↔
      reference.defect? = none ∧ candidate.defect? = none) ∧
    (∀ failure, report reference candidate = .error failure → failure.category = .comparisonInput ∧
      ((∃ cause, reference.defect? = some cause ∧
          failure = .context "reference specification" (.comparison cause)) ∨
        (reference.defect? = none ∧ ∃ cause, candidate.defect? = some cause ∧
          failure = .context "candidate specification" (.comparison cause)))) ∧
    ∀ r, report reference candidate = .ok r →
      let a := alignScenarios reference.scenarios candidate.scenarios
      r.matched = a.matched.map pairOf ∧ r.missing = a.missing.map Scenario.name ∧
      r.extra = a.extra.map Scenario.name ∧
      r.assertionMatch.keys.Perm (r.matched.map Pair.reference) ∧
      ∀ m ∈ a.matched, reference.scenario? m.1.name = some m.1 ∧
        candidate.scenario? m.2.1.name = some m.2.1 ∧
        r.assertionMatch.get? m.1.name = some (assertionRatio m.1.assertions m.2.1.assertions) := by
  refine ⟨?_, ?_, ?_⟩
  · simp only [report_eq_ok_iff, exists_and_left, exists_eq', and_true]
  · intro failure hfail
    have hcause := report_eq_error_iff.1 hfail
    refine ⟨?_, hcause⟩
    rcases hcause with ⟨cause, -, rfl⟩ | ⟨-, cause, -, rfl⟩ <;> rfl
  · intro r hr
    obtain ⟨hreference, hcandidate, rfl⟩ := report_eq_ok_iff.1 hr
    have hrnames := ((Plan.defect?_eq_none_iff reference).1 hreference).2
    have hcnames := ((Plan.defect?_eq_none_iff candidate).1 hcandidate).2
    have hmembers := members_compareSound (α := Float) hrnames hcnames
    have hmatched : (Report.ofComparison reference candidate
        (compareSound reference candidate)).matched =
      (alignScenarios reference.scenarios candidate.scenarios).matched.map pairOf := rfl
    refine ⟨hmatched, rfl, rfl, ?_, ?_⟩
    · have hkeys := hmembers.map Prod.fst
      rw [hmatched, List.map_map]
      rw [List.map_map] at hkeys
      exact hkeys
    · intro m hm
      have hmem := mem_of_mem_matched hm
      refine ⟨Plan.scenario?_of_mem hrnames hmem.1, Plan.scenario?_of_mem hcnames hmem.2, ?_⟩
      exact KeyMap.get?_of_mem (hmembers.symm.subset (List.mem_map_of_mem hm))

/-- Two scenarios, one of which asserts twice. -/
def closings : Plan where
  name := "leads"
  scenarios := [
    { name := "closes lead", assertions := [.equal "lead.open" (.bool false), .equal "total" (.int 3)] },
    { name := "refuses lead", assertions := [.raising "lead.close()" "StateError"] }]

/-- Two scenarios of one name, which a lookup could not tell apart. -/
def namesakes : Plan where
  name := "leads"
  scenarios := [{ name := "closes lead" }, { name := "closes lead", category := .edge }]

theorem report_faithful_closings : (∃ r, report closings closings = .ok r ∧
      r.assertionMatch.keys.Perm (r.matched.map Pair.reference)) ∧
    ¬∃ r, report namesakes closings = .ok r := by
  refine ⟨?_, fun h => absurd ((report_faithful namesakes closings).1.1 h).1 (by decide)⟩
  obtain ⟨hreport, -, hfaithful⟩ := report_faithful closings closings
  obtain ⟨r, hr⟩ := hreport.2 ⟨by decide, by decide⟩
  exact ⟨r, hr, (hfaithful r hr).2.2.2.1⟩

end Concord.Equivalence
