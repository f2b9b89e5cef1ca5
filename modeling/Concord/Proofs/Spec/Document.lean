/-
Documents as JSON. What is written of a document is read back as it was
(`document_document`), however deep its steps go: the fuel of the reader is the height of
the value, and a step lies below the height of its parent.
-/
import Concord.Proofs.Json.Record
import Concord.Spec.Document

namespace Concord.Spec

open Json Json.Encode

/-! ## Steps -/

theorem steps_eq_map (ss : List Step) : Encode.steps ss = ss.map Encode.step := by
  induction ss with
  | nil => rfl
  | cons s ss ih => simp [Encode.steps, ih]

/-- With fuel for the height of each of them, some steps are read back from their list. -/
theorem list_steps {fuel : Nat} {ss : List Step}
    (ih : ∀ s : Step, (Encode.step s).height < fuel →
      Decode.stepWithin fuel true (Encode.step s) = some s)
    (hheight : heightItems (Encode.steps ss) < fuel) :
    Json.Decode.list (Decode.stepWithin fuel true) (.arr (Encode.steps ss)) = some ss := by
  rw [steps_eq_map] at hheight ⊢
  refine mapM_map_some fun s hs => ih s ?_
  exact Nat.lt_of_le_of_lt (height_le_heightItems (List.mem_map_of_mem hs)) hheight

/-- A step is read back from what is written of it, with fuel for its height. -/
theorem stepWithin_step (fuel : Nat) (inside : Bool) (s : Step)
    (hheight : (Encode.step s).height < fuel) :
    Decode.stepWithin fuel inside (Encode.step s) = some s := by
  induction fuel generalizing inside s with
  | zero => omega
  | succ fuel ih =>
    rw [Decode.stepWithin]
    cases s with
    | validate condition error =>
      simp only [Encode.step, List.append_assoc]
      refine tagged_of_reads rfl (by decide) ((fits_member _ _).append (fits_memberUnless _ _ _)) ?_
      refine .bind (reads_field (string_str condition) (by simp [member?_append])) ?_
      exact .bind (reads_fieldOption error nullable_string (by simp [member?_append])) (.pure _)
    | mutate field value =>
      simp only [Encode.step, List.append_assoc]
      refine tagged_of_reads rfl (by decide) ((fits_member _ _).append (fits_member _ _)) ?_
      refine .bind (reads_field (string_str field) (by simp [member?_append])) ?_
      exact .bind (reads_field (string_str value) (by simp [member?_append])) (.pure _)
    | invoke call unclassified =>
      simp only [Encode.step, List.append_assoc]
      refine tagged_of_reads rfl (by decide) ((fits_member _ _).append (fits_memberUnless _ _ _)) ?_
      refine .bind (reads_field (string_str call) (by simp [member?_append])) ?_
      have habsent : (!unclassified) = true → unclassified = false := by simp
      exact .bind (reads_fieldOr (bool_bool unclassified) habsent (by simp [member?_append])) (.pure _)
    | branch condition yes otherwise =>
      have hyes : heightItems (Encode.steps yes) < fuel := by
        simp only [Encode.step, height, heightMembers_append, heightMembers_member] at hheight
        omega
      have hno : heightItems (Encode.steps otherwise) < fuel := by
        simp only [Encode.step, height, heightMembers_append, heightMembers_member] at hheight
        omega
      simp only [Encode.step, List.append_assoc]
      refine tagged_of_reads rfl (by decide)
        ((fits_member _ _).append ((fits_member _ _).append (fits_member _ _))) ?_
      refine .bind (reads_field (string_str condition) (by simp [member?_append])) ?_
      refine .bind (reads_field (list_steps (ih true) hyes) (by simp [member?_append])) ?_
      exact .bind (reads_fieldOr_written (list_steps (ih true) hno) (by simp [member?_append])) (.pure _)
    | iterate range body =>
      have hbody : heightItems (Encode.steps body) < fuel := by
        simp only [Encode.step, height, heightMembers_append, heightMembers_member] at hheight
        omega
      simp only [Encode.step, List.append_assoc]
      refine tagged_of_reads rfl (by decide) ((fits_member _ _).append (fits_member _ _)) ?_
      refine .bind (reads_field (string_str range) (by simp [member?_append])) ?_
      exact .bind (reads_field (list_steps (ih true) hbody) (by simp [member?_append])) (.pure _)
    | raise error =>
      simp only [Encode.step]
      refine tagged_of_reads rfl (by decide) (fits_member _ _) ?_
      exact .bind (reads_field (string_str error) (by simp)) (.pure _)
    | give value =>
      simp only [Encode.step]
      refine tagged_of_reads rfl (by decide) (fits_memberUnless _ _ _) ?_
      exact .bind (reads_fieldOption value nullable_string (by simp)) (.pure _)

theorem step_step (s : Step) : Decode.step (Encode.step s) = some s :=
  stepWithin_step _ _ s (Nat.lt_succ_self _)

/-! ## Actions, fields and documents -/

theorem action_action (a : Action) : Decode.action (Encode.action a) = some a := by
  have hsteps : Json.Decode.list Decode.step (.arr (Encode.steps a.steps)) = some a.steps := by
    rw [steps_eq_map]
    exact mapM_map_some fun s _ => step_step s
  refine record_of_reads (by decide)
    (((fits_member _ _).append (fits_memberUnless _ _ _)).append (fits_member _ _)) ?_
  refine .bind (reads_field (string_str a.name) (by simp [member?_append])) ?_
  refine .bind (reads_fieldOr (list_strings a.parameters) List.isEmpty_iff.1
    (by simp [member?_append])) ?_
  exact .bind (reads_field hsteps (by simp [member?_append])) (.pure _)

theorem fieldDocument_field (f : FieldDocument) :
    Decode.fieldDocument (Encode.field f) = some f := by
  refine record_of_reads (by decide)
    ((((((fits_member _ _).append (fits_member _ _)).append (fits_memberUnless _ _ _)).append
      (fits_memberUnless _ _ _)).append (fits_memberUnless _ _ _)).append
      (fits_memberUnless _ _ _)) ?_
  refine .bind (reads_field (string_str f.type) (by simp [member?_append])) ?_
  refine .bind (reads_field (bool_bool f.required) (by simp [member?_append])) ?_
  refine .bind (reads_fieldOption f.default nullable_string (by simp [member?_append])) ?_
  refine .bind (reads_fieldOption f.reference nullable_string (by simp [member?_append])) ?_
  refine .bind (reads_fieldOr (list_strings f.values) List.isEmpty_iff.1
    (by simp [member?_append])) ?_
  exact .bind (reads_fieldOr (list_strings f.validations) List.isEmpty_iff.1
    (by simp [member?_append])) (.pure _)

theorem tag_tag (t : Pattern.Tag) : Decode.tag (.str t.name) = some t := Pattern.Tag.ofName?_name t

theorem nullable_format (f : Source.Format) :
    Json.Decode.nullable Source.Decode.format (.str f.tag) = some (some f) := by
  cases f <;> decide

theorem nat32_int {n : Nat} (h : n < Nat.pow 2 32) : Decode.nat32 (.int n) = some n := by
  have hbound : Nat.pow 2 32 ≤ Number.maxNat64 := by decide
  have hwhole : n ≤ Number.maxNat64 := by omega
  have hsmall : n < 4294967296 := h
  simp [Decode.nat32, Json.Decode.nat, hwhole, hsmall, Option.filter]

/-- A document is read back from what is written of it. -/
theorem document_document (d : Document) (hversion : d.version < Nat.pow 2 32) :
    Decode.document (Encode.document d) = some d := by
  have hfields := map_map d.fields fun x _ => fieldDocument_field x.2
  have hactions := list_list d.actions fun a _ => action_action a
  have htags := list_list d.tags fun t _ => tag_tag t
  refine record_of_reads (by decide)
    (((((((fits_member _ _).append (fits_member _ _)).append (fits_member _ _)).append
      (fits_member _ _)).append (fits_member _ _)).append (fits_member _ _)).append
      (fits_memberUnless _ _ _)) ?_
  refine .bind (reads_field (string_str d.entity) (by simp [member?_append])) ?_
  refine .bind (reads_fieldOr_written (string_str d.space) (by simp [member?_append])) ?_
  refine .bind (reads_fieldOr_written hfields (by simp [member?_append])) ?_
  refine .bind (reads_fieldOr_written hactions (by simp [member?_append])) ?_
  refine .bind (reads_fieldOr_written htags (by simp [member?_append])) ?_
  refine .bind (reads_fieldOr_written (nat32_int hversion) (by simp [member?_append])) ?_
  exact .bind (reads_fieldOption d.format nullable_format (by simp [member?_append])) (.pure _)

end Concord.Spec
