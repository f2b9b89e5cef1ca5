/-
Plans in storage. A plan is read back from its JSON form as it was (`plan_plan`): what a
record leaves out is what its reader puts in its place, and an expected value, settled as
it is, stays as it is. So a comparison cannot tell a stored plan from the plan it was
stored from. The text of a plan is read back as well (`read_text`), but for doubles and for
values that are nested too deep.
-/
import Concord.Equivalence.Report
import Concord.Proofs.Json.Record
import Concord.Proofs.Json.Spelling
import Concord.Scenario.Basic

namespace Concord.Plan

open Json Json.Encode

theorem assertion_assertion (a : Assertion) : Decode.assertion (Encode.assertion a) = some a := by
  have hkind := (variant_str _ a.kind.name).trans (Assertion.Kind.ofName?_name a.kind)
  refine record_of_reads (by decide)
    (((((fits_member _ _).append (fits_member _ _)).append (fits_member _ _)).append
      (fits_memberUnless _ _ _)).append (fits_memberUnless _ _ _)) ?_
  refine .bind (reads_field hkind (by simp [member?_append])) ?_
  refine .bind (reads_field (string_str a.target) (by simp [member?_append])) ?_
  refine .bind (reads_fieldOr_written (datum_json a.expected) (by simp [member?_append])) ?_
  refine .bind (reads_fieldOption a.actual nullable_string (by simp [member?_append])) ?_
  exact .bind (reads_fieldOption a.message nullable_string (by simp [member?_append])) (.pure _)

theorem scenario_scenario (s : Scenario) : Decode.scenario (Encode.scenario s) = some s := by
  have hcategory := (variant_str _ s.category.name).trans (Scenario.Category.ofName?_name s.category)
  have hassertions := list_list s.assertions fun a _ => assertion_assertion a
  refine record_of_reads (by decide)
    (((((((((fits_member _ _).append (fits_member _ _)).append (fits_member _ _)).append
      (fits_memberUnless _ _ _)).append (fits_memberUnless _ _ _)).append
      (fits_memberUnless _ _ _)).append (fits_member _ _)).append
      (fits_memberUnless _ _ _)).append (fits_memberUnless _ _ _)) ?_
  refine .bind (reads_field (string_str s.name) (by simp [member?_append])) ?_
  refine .bind (reads_fieldOr_written (string_str s.description) (by simp [member?_append])) ?_
  refine .bind (reads_fieldOr_written hcategory (by simp [member?_append])) ?_
  refine .bind (reads_fieldOr (list_strings s.setup) List.isEmpty_iff.1
    (by simp [member?_append])) ?_
  refine .bind (reads_fieldOr (list_strings s.action) List.isEmpty_iff.1
    (by simp [member?_append])) ?_
  refine .bind (reads_fieldOr (list_strings s.teardown) List.isEmpty_iff.1
    (by simp [member?_append])) ?_
  refine .bind (reads_fieldOr_written hassertions (by simp [member?_append])) ?_
  refine .bind (reads_fieldOr (list_strings s.fixtures) List.isEmpty_iff.1
    (by simp [member?_append])) ?_
  exact .bind (reads_fieldOr (list_strings s.tags) List.isEmpty_iff.1
    (by simp [member?_append])) (.pure _)

theorem planFixture_planFixture (f : Fixture) :
    Decode.planFixture (Encode.planFixture f) = some f := by
  refine record_of_reads (by decide) ((fits_member _ _).append (fits_member _ _)) ?_
  refine .bind (reads_field (string_str f.name) (by simp [member?_append])) ?_
  exact .bind (reads_fieldOr_written (string_str f.scope) (by simp [member?_append])) (.pure _)

/-- A plan is read back from what is written of it. -/
theorem plan_plan (p : Plan) : Decode.plan (Encode.plan p) = some p := by
  have hfocus := (variant_str _ p.focus.name).trans (Focus.ofName?_name p.focus)
  have hscenarios := list_list p.scenarios fun s _ => scenario_scenario s
  have hfixtures := list_list p.fixtures fun f _ => planFixture_planFixture f
  refine record_of_reads (by decide)
    ((((((fits_member _ _).append (fits_member _ _)).append (fits_member _ _)).append
      (fits_member _ _)).append (fits_memberUnless _ _ _)).append (fits_memberUnless _ _ _)) ?_
  refine .bind (reads_field (string_str p.name) (by simp [member?_append])) ?_
  refine .bind (reads_fieldOr_written (string_str p.subject) (by simp [member?_append])) ?_
  refine .bind (reads_fieldOr_written hfocus (by simp [member?_append])) ?_
  refine .bind (reads_fieldOr_written hscenarios (by simp [member?_append])) ?_
  refine .bind (reads_fieldOr hfixtures List.isEmpty_iff.1 (by simp [member?_append])) ?_
  exact .bind (reads_fieldOr (names_strings p.covered) NameSet.eq_empty_of_isEmpty
    (by simp [member?_append])) (.pure _)

/-- A plan comes back from storage as it was, and is compared, on either side, as it would have been
before. -/
theorem restored_stored (p : Plan) :
    Decode.plan (Encode.plan p) = some p ∧
      (Decode.plan (Encode.plan p)).map (fun stored =>
          (Equivalence.report stored p, Equivalence.report p stored)) =
        some (Equivalence.report p p, Equivalence.report p p) := by
  rw [plan_plan]
  exact ⟨rfl, rfl⟩

/-! ## Text -/

theorem shallow_assertion {depth : Nat} {a : Assertion} (h : Shallow depth a.expected.json) :
    Shallow (depth + 1) (Encode.assertion a) :=
  shallow_obj (by simp [h])

theorem shallow_scenario {depth : Nat} {s : Scenario}
    (h : ∀ a ∈ s.assertions, Shallow depth a.expected.json) :
    Shallow (depth + 3) (Encode.scenario s) := by
  have hassertions : Shallow (depth + 2) (list Encode.assertion s.assertions) :=
    shallow_list fun a ha => shallow_assertion (h a ha)
  exact shallow_obj (by simp [hassertions])

theorem shallow_planFixture (f : Fixture) : Shallow 1 (Encode.planFixture f) := shallow_obj (by simp)

theorem shallow_plan {depth : Nat} {p : Plan}
    (h : ∀ s ∈ p.scenarios, ∀ a ∈ s.assertions, Shallow depth a.expected.json) :
    Shallow (depth + 5) (Encode.plan p) := by
  have hscenarios : Shallow (depth + 4) (list Encode.scenario p.scenarios) :=
    shallow_list fun s hs => shallow_scenario (h s hs)
  have hfixtures : Shallow (depth + 4) (list Encode.planFixture p.fixtures) :=
    (shallow_list fun f _ => shallow_planFixture f).mono (by omega)
  exact shallow_obj (by simp [hscenarios, hfixtures])

/-- A plan is read back from its text, if the values it expects hold no doubles and are nested at most
122 deep: five lists and objects stand around them. -/
theorem read_text {p : Plan}
    (h : ∀ s ∈ p.scenarios, ∀ a ∈ s.assertions, Shallow 122 a.expected.json) :
    (Json.read p.text).bind Decode.plan = some p := by
  have hshallow : Shallow maxDepth (Encode.plan p) := shallow_plan h
  rw [Plan.text, hshallow.read (spells_pretty hshallow.plain), Option.bind_some, plan_plan]

end Concord.Plan
