/-
Plans of test modules can be compared. While the statements of a case are read, every
assertion of the draft identifies its error: a statement adds only such (`Sound.read`),
and turning an equality into a transition makes nothing about an error. A decoration that
expects an error names one or stands for a panic.
-/
import Concord.Proofs.Assertion.Identified
import Concord.Proofs.Scenario.Check
import Concord.Scenario.Suite

namespace Concord.Scenario

open Text Assertion

/-! ## Drafts -/

namespace Draft

@[simp] theorem assertions_placeFirst (d : Draft) : d.placeFirst.assertions = d.assertions := by
  unfold placeFirst
  split <;> rfl

@[simp] theorem assertions_place (d : Draft) (actions : List String) :
    (d.place actions).assertions = d.assertions := by
  unfold place
  dsimp only
  split
  · exact d.assertions_placeFirst
  · split <;> rfl

/-- An equality that becomes a transition is about no error before or after. -/
theorem identified_settled (d : Draft) {a : Assertion} (h : Identified a) : Identified (d.settled a) := by
  unfold settled
  split
  · split
    · exact identified_of_kind (by simp)
    · exact h
  · exact h

/-- Every assertion that was taken in identifies its error. -/
def Sound (d : Draft) : Prop := ∀ a ∈ d.assertions, Identified a

theorem Sound.assert {d : Draft} (hd : d.Sound) {a : Assertion} (ha : Identified a) : (d.assert a).Sound := by
  intro b hb
  simp only [Draft.assert, List.mem_append, List.mem_singleton] at hb
  rcases hb with hb | rfl
  · exact hd b hb
  · exact d.identified_settled ha

theorem Sound.foldl_assert {d : Draft} (hd : d.Sound) {as : List Assertion} (has : ∀ a ∈ as, Identified a) :
    (as.foldl Draft.assert d).Sound := by
  induction as generalizing d with
  | nil => exact hd
  | cons a as ih => exact ih (hd.assert (has a (by simp))) fun b hb => has b (by simp [hb])

/-- Reading a statement keeps a draft sound. -/
theorem Sound.read {d : Draft} (hd : d.Sound) (framework : Framework) {statement : String}
    (hnamed : NamesMatcher statement.toList) : (d.read framework statement).Sound := by
  unfold Draft.read
  split
  · exact hd
  · rename_i e he
    refine Sound.foldl_assert ?_ (extract?_identified hnamed he)
    intro a ha
    exact hd a (by simpa using ha)

theorem Sound.foldl_read {d : Draft} (hd : d.Sound) (framework : Framework) {statements : List String}
    (hnamed : ∀ t ∈ statements, NamesMatcher t.toList) :
    (statements.foldl (Draft.read framework) d).Sound := by
  induction statements generalizing d with
  | nil => exact hd
  | cons t ts ih => exact ih (hd.read framework (hnamed t (by simp))) fun u hu => hnamed u (by simp [hu])

end Draft

/-! ## Cases -/

/-- The error that a decoration names is never blank. -/
theorem allBlank_panicError (decoration : String) :
    allBlank (panicError decoration).toList = false := by
  unfold panicError
  split
  · dsimp only
    split
    · decide
    · rename_i hne
      rw [String.toList_ofList]
      exact allBlank_trim (by simpa using hne)
  · decide

theorem identified_panicAssertion? {c : Source.Case} {action : List String} {assertions : List Assertion}
    {a : Assertion} (h : panicAssertion? c action assertions = some a) : Identified a := by
  unfold panicAssertion? at h
  split at h
  · split at h
    · cases h
    · cases h
      exact identified_raising _ (allBlank_panicError _)
  · cases h

/-- Every assertion of the scenario of a case identifies its error. -/
theorem identified_ofCase (framework : Framework) (c : Source.Case)
    (hnamed : ∀ t ∈ c.body, NamesMatcher t.toList) : ∀ a ∈ (ofCase framework c).assertions, Identified a := by
  have hsound : (c.body.foldl (Draft.read framework) {}).Sound :=
    Draft.Sound.foldl_read (by intro a ha; cases ha) framework hnamed
  intro a ha
  unfold ofCase at ha
  rcases List.mem_append.1 ha with ha | ha
  · -- whichever way the last statements are placed, the assertions stay
    refine hsound a ?_
    split at ha <;> simpa using ha
  · exact identified_panicAssertion? (Option.mem_toList.1 ha)

/-- A scenario whose assertions identify their errors has none that does not. -/
theorem unidentified?_eq_none {s : Scenario} (h : ∀ a ∈ s.assertions, Identified a) :
    Plan.unidentified? s = none := by
  refine List.find?_eq_none.2 fun a ha hbad => ?_
  simp only [Bool.and_eq_true, beq_iff_eq, Option.isNone_iff_eq_none] at hbad
  obtain ⟨error, herror, -⟩ := h a ha hbad.1
  simp [hbad.2] at herror

end Concord.Scenario

namespace Concord.Plan

open Text Assertion

/-- **The plan of a test module can be compared**, of whatever format and framework, if its cases have names
that are not blank and all different, and if its expectations name their matchers: whatever the statements
and the decorations are, every assertion about an error identifies it. -/
theorem ofSuite_accepted (s : Source.Suite) (hnamed : ∀ c ∈ s.cases, allBlank c.name.toList = false)
    (hdistinct : (s.cases.map Source.Case.name).Nodup)
    (hmatchers : ∀ c ∈ s.cases, ∀ t ∈ c.body, NamesMatcher t.toList) :
    (ofSuite s).defect? = none ∧
      ∀ scenario ∈ (ofSuite s).scenarios, ∀ a ∈ scenario.assertions, a.kind = .raises →
        ∃ error, a.errorIdentifier? = some error ∧ allBlank error.toList = false := by
  have hscenarios : (ofSuite s).scenarios = s.cases.map (Scenario.ofCase (.of s.format s.framework)) := rfl
  have hidentified : ∀ scenario ∈ (ofSuite s).scenarios, ∀ a ∈ scenario.assertions, Identified a := by
    intro scenario hscenario
    obtain ⟨c, hc, rfl⟩ := List.mem_map.1 (hscenarios ▸ hscenario)
    exact Scenario.identified_ofCase _ c (hmatchers c hc)
  refine ⟨(defect?_eq_none_iff _).2 ⟨fun scenario hscenario => ⟨?_, ?_⟩, ?_⟩, hidentified⟩
  · obtain ⟨c, hc, rfl⟩ := List.mem_map.1 (hscenarios ▸ hscenario)
    exact hnamed c hc
  · exact Scenario.unidentified?_eq_none (hidentified scenario hscenario)
  · rw [hscenarios, List.map_map]
    exact hdistinct

/-- Errors on several routes: a block, a rejection by a matcher, and a decoration that names none. -/
def refusals : Source.Suite where
  name := "refusals"
  framework := "mixed"
  format := .unknown
  cases := [
    { name := "closes twice", body := ["lead.close()", "with pytest.raises( StateError ):\n    lead.close()"] },
    { name := "closes nothing", body := ["await expect(lead.close()).rejects.toBeStale();"] },
    { name := "closes late", decorations := ["#[should_panic(expected = \" \")]"], body := ["lead.close()"] }]

theorem ofSuite_accepted_refusals : (ofSuite refusals).defect? = none ∧
    (ofSuite refusals).scenarios.map (fun scenario => scenario.assertions.map Assertion.errorIdentifier?) =
      [[some "StateError"], [some "toBeStale"], [some "panic"]] := by
  refine ⟨(ofSuite_accepted refusals (by decide) (by decide) ?_).1, by decide +kernel⟩
  decide +kernel

/-- A matcher without a name identifies no error. -/
example : (ofSuite { refusals with cases := [{ name := "closes", body := ["expect(p).rejects.()"] }] }).defect? =
    some (.missingError "refusals" "p" "closes") := by decide +kernel

end Concord.Plan
