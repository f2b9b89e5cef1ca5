/-
Which plans can be compared: every scenario has a name that is not blank and that no
other has, and every assertion about an error identifies one (`defect?_eq_none_iff`).
-/
import Concord.Scenario.Basic

namespace Concord.Plan

open Text

/-- What is asked of a scenario on its own. -/
structure SoundScenario (s : Scenario) : Prop where
  named : allBlank s.name.toList = false
  identified : unidentified? s = none

theorem scenariosDefect?_eq_none_iff (plan : String) (index : Nat) (seen : List String)
    (ss : List Scenario) : scenariosDefect? plan index seen ss = none ↔
      (∀ s ∈ ss, SoundScenario s ∧ s.name ∉ seen) ∧ (ss.map Scenario.name).Nodup := by
  induction ss generalizing index seen with
  | nil => simp [scenariosDefect?]
  | cons s rest ih =>
    simp only [scenariosDefect?]
    split
    · rename_i hblank
      simp only [reduceCtorEq, false_iff, not_and]
      intro h
      exact absurd (h s (by simp)).1.named (by simp [hblank])
    · rename_i hnamed
      split
      · rename_i hseen
        simp only [reduceCtorEq, false_iff, not_and]
        intro h
        exact absurd (by simpa using hseen) (h s (by simp)).2
      · rename_i hnew
        split
        · rename_i a hsome
          simp only [reduceCtorEq, false_iff, not_and]
          intro h
          exact absurd (h s (by simp)).1.identified (by simp [hsome])
        · rename_i hnone
          rw [ih]
          have hs : SoundScenario s := ⟨by simpa using hnamed, hnone⟩
          have hs' : s.name ∉ seen := by simpa using hnew
          simp only [List.mem_cons, not_or, List.map_cons, List.nodup_cons, List.mem_map, not_exists,
            not_and, forall_eq_or_imp]
          constructor
          · rintro ⟨hrest, hnodup⟩
            exact ⟨⟨⟨hs, hs'⟩, fun t ht => ⟨(hrest t ht).1, (hrest t ht).2.2⟩⟩,
              fun t ht => (hrest t ht).2.1, hnodup⟩
          · rintro ⟨⟨-, hrest⟩, hfresh, hnodup⟩
            exact ⟨fun t ht => ⟨(hrest t ht).1, hfresh t ht, (hrest t ht).2⟩, hnodup⟩

/-- A plan has no defect exactly when its scenarios are sound and have different names. -/
theorem defect?_eq_none_iff (p : Plan) : p.defect? = none ↔
    (∀ s ∈ p.scenarios, SoundScenario s) ∧ (p.scenarios.map Scenario.name).Nodup := by
  simp [defect?, scenariosDefect?_eq_none_iff]

theorem find?_name_of_mem : ∀ {ss : List Scenario} {s : Scenario},
    (ss.map Scenario.name).Nodup → s ∈ ss → ss.find? (fun t => t.name == s.name) = some s
  | [], _, _, hs => by simp at hs
  | t :: ss, s, h, hs => by
    simp only [List.map_cons, List.nodup_cons] at h
    rcases List.mem_cons.1 hs with rfl | hs
    · simp
    · have hne : (t.name == s.name) = false := by
        simp only [beq_eq_false_iff_ne]
        intro he
        exact h.1 (he ▸ List.mem_map_of_mem hs)
      simp only [List.find?_cons, hne]
      exact find?_name_of_mem h.2 hs

/-- With different names, a scenario is found under its name. -/
theorem scenario?_of_mem {p : Plan} {s : Scenario} (h : (p.scenarios.map Scenario.name).Nodup)
    (hs : s ∈ p.scenarios) : p.scenario? s.name = some s := find?_name_of_mem h hs

end Concord.Plan
