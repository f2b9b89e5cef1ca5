/-
Units in storage. A unit is read back from its JSON form as it was, unless the name of an
unresolved type is that of a resolved one (`unit_unit`). So every text that spells some
units, or a single one, is read as them, or refused for the first entity among them that is
not acceptable.
-/
import Concord.Proofs.Json.Record
import Concord.Proofs.Json.Spelling
import Concord.Proofs.Source.Validity
import Concord.Source.Registry

namespace Concord.Source

open Json Json.Encode

/-! ## Types -/

/-- Whether the text of a type that is not resolved is read as one that is. -/
def TypeTag.isAmbiguous : TypeTag → Bool
  | .known _ => false
  | .unresolved raw => (BaseType.all.map BaseType.name).contains raw

/-- Whether a field of a unit has such a type. -/
def Unit.isAmbiguous : Unit → Bool
  | .entity e => e.fields.any fun f => f.type.isAmbiguous
  | .suite _ => false

theorem TypeTag.ofText_text {t : TypeTag} (h : t.isAmbiguous = false) : ofText t.text = t := by
  cases t with
  | known b => simp [ofText, text, BaseType.ofName?_name]
  | unresolved raw =>
    have hnone : BaseType.ofName? raw = none := by
      refine List.find?_eq_none.2 fun b hb hname => ?_
      have hmem : raw ∈ BaseType.all.map BaseType.name := List.mem_map.2 ⟨b, hb, by simpa using hname⟩
      rw [isAmbiguous, List.contains_iff_mem.2 hmem] at h
      cases h
    simp [ofText, text, hnone]

example : TypeTag.ofText (TypeTag.unresolved "text").text = .known .text := by decide

/-! ## Entities -/

theorem field_field (f : Field) (h : f.type.isAmbiguous = false) :
    Decode.field (Encode.field f) = some f := by
  have htype : Decode.typeTag (.str f.type.text) = some f.type :=
    congrArg some (TypeTag.ofText_text h)
  refine record_of_reads (by decide)
    ((((((((fits_member _ _).append (fits_member _ _)).append (fits_member _ _)).append
      (fits_member _ _)).append (fits_memberUnless _ _ _)).append (fits_memberUnless _ _ _)).append
      (fits_memberUnless _ _ _)).append (fits_memberUnless _ _ _)) ?_
  refine .bind (reads_field (string_str f.name) (by simp [member?_append])) ?_
  refine .bind (reads_field htype (by simp [member?_append])) ?_
  refine .bind (reads_fieldOr_written (string_str f.spelling) (by simp [member?_append])) ?_
  refine .bind (reads_fieldOr_written (bool_bool f.required) (by simp [member?_append])) ?_
  refine .bind (reads_fieldOption f.default nullable_string (by simp [member?_append])) ?_
  refine .bind (reads_fieldOption f.reference nullable_string (by simp [member?_append])) ?_
  refine .bind (reads_fieldOr (list_strings f.values) List.isEmpty_iff.1
    (by simp [member?_append])) ?_
  exact .bind (reads_fieldOr (list_strings f.validations) List.isEmpty_iff.1
    (by simp [member?_append])) (.pure _)

theorem parameter_parameter (p : Parameter) : Decode.parameter (Encode.parameter p) = some p := by
  refine record_of_reads (by decide) ((fits_member _ _).append (fits_memberUnless _ _ _)) ?_
  refine .bind (reads_field (string_str p.name) (by simp [member?_append])) ?_
  exact .bind (reads_fieldOption p.type nullable_string (by simp [member?_append])) (.pure _)

theorem method_method (m : Method) : Decode.method (Encode.method m) = some m := by
  have hparameters := list_list m.parameters fun p _ => parameter_parameter p
  refine record_of_reads (by decide)
    (((((((((fits_member _ _).append (fits_memberUnless _ _ _)).append
      (fits_memberUnless _ _ _)).append (fits_memberUnless _ _ _)).append
      (fits_memberUnless _ _ _)).append (fits_memberUnless _ _ _)).append (fits_member _ _)).append
      (fits_member _ _)).append (fits_member _ _)) ?_
  refine .bind (reads_field (string_str m.name) (by simp [member?_append])) ?_
  refine .bind (reads_fieldOr hparameters List.isEmpty_iff.1 (by simp [member?_append])) ?_
  refine .bind (reads_fieldOption m.returns nullable_string (by simp [member?_append])) ?_
  refine .bind (reads_fieldOr (list_strings m.body) List.isEmpty_iff.1
    (by simp [member?_append])) ?_
  refine .bind (reads_fieldOr (list_strings m.decorations) List.isEmpty_iff.1
    (by simp [member?_append])) ?_
  refine .bind (reads_fieldOption m.doc nullable_string (by simp [member?_append])) ?_
  refine .bind (reads_fieldOr_written (bool_bool m.isAsync) (by simp [member?_append])) ?_
  refine .bind (reads_fieldOr_written (bool_bool m.isFactory) (by simp [member?_append])) ?_
  exact .bind (reads_fieldOr_written (bool_bool m.isStatic) (by simp [member?_append])) (.pure _)

theorem format_tag (f : Format) : Decode.format (.str f.tag) = some f := by
  cases f <;> decide

theorem fits_entityMembers (e : Entity) : Fits (Encode.entityMembers e)
    ["name", "namespace", "fields", "methods", "supertypes", "decorations", "doc", "source_format",
      "metadata"] :=
  ((((((((fits_member _ _).append (fits_member _ _)).append (fits_member _ _)).append
    (fits_member _ _)).append (fits_memberUnless _ _ _)).append (fits_memberUnless _ _ _)).append
    (fits_memberUnless _ _ _)).append (fits_member _ _)).append (fits_memberUnless _ _ _)

theorem entity_entityMembers (e : Entity) (h : ∀ f ∈ e.fields, f.type.isAmbiguous = false) :
    Decode.entity (.obj (Encode.entityMembers e)) = some e := by
  have hfields := list_list e.fields fun f hf => field_field f (h f hf)
  have hmethods := list_list e.methods fun m _ => method_method m
  have hmetadata := map_map e.metadata fun x _ => string_str x.2
  refine record_of_reads (by decide) (fits_entityMembers e) ?_
  unfold Encode.entityMembers
  refine .bind (reads_field (string_str e.name) (by simp [member?_append])) ?_
  refine .bind (reads_fieldOr_written (string_str e.space) (by simp [member?_append])) ?_
  refine .bind (reads_fieldOr_written hfields (by simp [member?_append])) ?_
  refine .bind (reads_fieldOr_written hmethods (by simp [member?_append])) ?_
  refine .bind (reads_fieldOr (list_strings e.supertypes) List.isEmpty_iff.1
    (by simp [member?_append])) ?_
  refine .bind (reads_fieldOr (list_strings e.decorations) List.isEmpty_iff.1
    (by simp [member?_append])) ?_
  refine .bind (reads_fieldOption e.doc nullable_string (by simp [member?_append])) ?_
  refine .bind (reads_field (format_tag e.format) (by simp [member?_append])) ?_
  exact .bind (reads_fieldOr hmetadata KeyMap.eq_empty_of_isEmpty (by simp [member?_append]))
    (.pure _)

/-! ## Test modules -/

theorem line_toNat (n : UInt64) : Decode.line (.int n.toNat) = some n := by
  have hword : n.toNat ≤ Number.maxNat64 := Nat.le_pred_of_lt n.toNat_lt
  simp [Decode.line, Json.Decode.nat, hword]

theorem case_case (c : Case) : Decode.case (Encode.case c) = some c := by
  refine record_of_reads (by decide)
    ((((((fits_member _ _).append (fits_memberUnless _ _ _)).append (fits_memberUnless _ _ _)).append
      (fits_memberUnless _ _ _)).append (fits_member _ _)).append (fits_member _ _)) ?_
  refine .bind (reads_field (string_str c.name) (by simp [member?_append])) ?_
  refine .bind (reads_fieldOption c.doc nullable_string (by simp [member?_append])) ?_
  refine .bind (reads_fieldOr (list_strings c.decorations) List.isEmpty_iff.1
    (by simp [member?_append])) ?_
  refine .bind (reads_fieldOr (list_strings c.fixtures) List.isEmpty_iff.1
    (by simp [member?_append])) ?_
  refine .bind (reads_fieldOr_written (list_strings c.body) (by simp [member?_append])) ?_
  exact .bind (reads_fieldOr_written (line_toNat c.line) (by simp [member?_append])) (.pure _)

theorem fixture_fixture (f : Fixture) : Decode.fixture (Encode.fixture f) = some f := by
  refine record_of_reads (by decide)
    (((fits_member _ _).append (fits_member _ _)).append (fits_memberUnless _ _ _)) ?_
  refine .bind (reads_field (string_str f.name) (by simp [member?_append])) ?_
  refine .bind (reads_fieldOr_written (string_str f.scope) (by simp [member?_append])) ?_
  exact .bind (reads_fieldOr (list_strings f.body) List.isEmpty_iff.1
    (by simp [member?_append])) (.pure _)

theorem fits_suiteMembers (s : Suite) : Fits (Encode.suiteMembers s)
    ["name", "subject", "framework", "source_format", "cases", "fixtures", "metadata"] :=
  ((((((fits_member _ _).append (fits_member _ _)).append (fits_member _ _)).append
    (fits_member _ _)).append (fits_member _ _)).append (fits_memberUnless _ _ _)).append
    (fits_memberUnless _ _ _)

theorem suite_suiteMembers (s : Suite) :
    Decode.suite (.obj (Encode.suiteMembers s)) = some s := by
  have hcases := list_list s.cases fun c _ => case_case c
  have hfixtures := list_list s.fixtures fun f _ => fixture_fixture f
  have hmetadata := map_map s.metadata fun x _ => string_str x.2
  refine record_of_reads (by decide) (fits_suiteMembers s) ?_
  unfold Encode.suiteMembers
  refine .bind (reads_field (string_str s.name) (by simp [member?_append])) ?_
  refine .bind (reads_fieldOr_written (string_str s.subject) (by simp [member?_append])) ?_
  refine .bind (reads_fieldOr_written (string_str s.framework) (by simp [member?_append])) ?_
  refine .bind (reads_field (format_tag s.format) (by simp [member?_append])) ?_
  refine .bind (reads_fieldOr_written hcases (by simp [member?_append])) ?_
  refine .bind (reads_fieldOr hfixtures List.isEmpty_iff.1 (by simp [member?_append])) ?_
  exact .bind (reads_fieldOr hmetadata KeyMap.eq_empty_of_isEmpty (by simp [member?_append]))
    (.pure _)

/-! ## Units -/

/-- A unit is read back from what is written of it. -/
theorem unit_unit (u : Unit) (h : u.isAmbiguous = false) : Decode.unit (Encode.unit u) = some u := by
  cases u with
  | entity e =>
    have hfields : ∀ f ∈ e.fields, f.type.isAmbiguous = false := by
      simpa [Unit.isAmbiguous] using h
    have hentity := entity_entityMembers e hfields
    exact tagged_of_decode rfl (by decide) (fits_entityMembers e)
      (congrArg (Option.map Unit.entity) hentity)
  | suite s =>
    exact tagged_of_decode rfl (by decide) (fits_suiteMembers s)
      (congrArg (Option.map Unit.suite) (suite_suiteMembers s))

theorem shallow_field (f : Field) : Shallow 2 (Encode.field f) := shallow_obj (by simp)

theorem shallow_parameter (p : Parameter) : Shallow 1 (Encode.parameter p) := shallow_obj (by simp)

theorem shallow_method (m : Method) : Shallow 3 (Encode.method m) := by
  have hparameters : Shallow 2 (list Encode.parameter m.parameters) :=
    shallow_list fun p _ => shallow_parameter p
  exact shallow_obj (by simp [hparameters])

theorem shallow_case (c : Case) : Shallow 2 (Encode.case c) := by
  have hline : Shallow 1 (.int c.line.toNat) := by
    refine ⟨(isWhole64_iff _).2 ⟨by omega, ?_⟩, Nat.zero_le _⟩
    exact Int.ofNat_le.2 (Nat.le_pred_of_lt c.line.toNat_lt)
  exact shallow_obj (by simp [hline])

theorem shallow_fixture (f : Fixture) : Shallow 2 (Encode.fixture f) := shallow_obj (by simp)

theorem shallow_unit (u : Unit) : Shallow 5 (Encode.unit u) := by
  cases u with
  | entity e =>
    have hfields : Shallow 4 (list Encode.field e.fields) :=
      (shallow_list fun f _ => shallow_field f).mono (by decide)
    have hmethods : Shallow 4 (list Encode.method e.methods) :=
      shallow_list fun m _ => shallow_method m
    exact shallow_obj (by simp [Encode.entityMembers, hfields, hmethods])
  | suite s =>
    have hcases : Shallow 4 (list Encode.case s.cases) :=
      (shallow_list fun c _ => shallow_case c).mono (by decide)
    have hfixtures : Shallow 4 (list Encode.fixture s.fixtures) :=
      (shallow_list fun f _ => shallow_fixture f).mono (by decide)
    exact shallow_obj (by simp [Encode.suiteMembers, hcases, hfixtures])

/-- The values that stand for some units: their list, or for a single one the unit itself. -/
inductive Stored : List Unit → Json → Prop where
  | many (units : List Unit) : Stored units (list Encode.unit units)
  | one (u : Unit) : Stored [u] (Encode.unit u)

theorem Stored.shallow {units : List Unit} {j : Json} (h : Stored units j) : Shallow maxDepth j := by
  cases h with
  | many units =>
    have hlist : Shallow 6 (list Encode.unit units) := shallow_list fun u _ => shallow_unit u
    exact hlist.mono (by decide)
  | one u => exact (shallow_unit u).mono (by decide)

/-- Units are found in what stands for them; one that stands for itself is no list. -/
theorem Stored.decode {units : List Unit} {j : Json} (h : Stored units j)
    (hunits : ∀ u ∈ units, u.isAmbiguous = false) :
    (Json.Decode.list Decode.unit j).or ((Decode.unit j).map fun u => [u]) = some units := by
  cases h with
  | many units =>
    rw [list_list units fun u hu => unit_unit u (hunits u hu)]
    rfl
  | one u =>
    have hnone : Json.Decode.list Decode.unit (Encode.unit u) = none := by cases u <;> rfl
    rw [hnone, unit_unit u (hunits u (by simp))]
    rfl

theorem readUnits_of_spells {units : List Unit} {j : Json} (h : Stored units j)
    (hunits : ∀ u ∈ units, u.isAmbiguous = false) {text : String}
    (hspells : Spells (.value j) text.toList) (origin : String) :
    readUnits text origin = (firstFault? units).elim (.ok units) .error := by
  simp only [readUnits, h.shallow.read hspells, h.decode hunits]
  cases firstFault? units <;> rfl

/-- The first entity that is not acceptable is the one that is reported. -/
theorem firstFault?_append {before : List Unit} (hbefore : ∀ e, .entity e ∈ before → e.defect? = none)
    {e : Entity} {d : Schema.Defect} (hdefect : e.defect? = some d) (after : List Unit) :
    firstFault? (before ++ .entity e :: after) = some (.invalid e.reportName d) := by
  induction before with
  | nil => simp [firstFault?, hdefect, Fault.ofDefect]
  | cons u before ih =>
    have hrest := ih fun e' he' => hbefore e' (by simp [he'])
    cases u with
    | entity e' => simp [firstFault?, hbefore e' (by simp), hrest]
    | suite s => simpa [firstFault?] using hrest

/-- Units are written on one line or over several, and are read from every text that spells them: all
of them in their order if every entity is acceptable, and otherwise the first entity that is not is
refused. -/
theorem readUnits_stored {units : List Unit} {j : Json} (h : Stored units j)
    (hunits : ∀ u ∈ units, u.isAmbiguous = false) (origin : String) :
    Spells (.value j) j.compact.toList ∧ Spells (.value j) j.pretty.toList ∧
      ∀ text : String, Spells (.value j) text.toList →
        ((∀ e, .entity e ∈ units → e.defect? = none) → readUnits text origin = .ok units) ∧
        ∀ before e after d, units = before ++ .entity e :: after →
          (∀ e', .entity e' ∈ before → e'.defect? = none) → e.defect? = some d →
          readUnits text origin = .error (.invalid e.reportName d) := by
  refine ⟨spells_compact h.shallow.plain, spells_pretty h.shallow.plain, fun text hspells => ?_⟩
  rw [readUnits_of_spells h hunits hspells]
  constructor
  · intro hvalid
    rw [(firstFault?_eq_none_iff units).2 hvalid]
    rfl
  · rintro before e after d rfl hbefore hdefect
    rw [firstFault?_append hbefore hdefect]
    rfl

/-- A model and a test of it, with a line number and texts that are hard to write. -/
def ledger : List Unit := [
  .entity {
    name := "Account"
    fields := [
      .pointing "owner" "Person",
      { Field.plain "total" (.unresolved "Money") with default := some "\"0\"\t\\" }]
    methods := [{ name := "close", parameters := [{ name := "at" }], doc := some "line\nline" }]
    format := .python },
  .suite {
    name := "accounts"
    format := .pytest
    cases := [{ name := "closes", body := ["assert \x01"], line := 18446744073709551615 }] }]

/-- An account whose owner is a reference to nothing. -/
def ownerless : Entity where
  name := "Account"
  fields := [.plain "owner" (.known .reference)]
  format := .rust

theorem readUnits_stored_ledger :
    readUnits (list Encode.unit ledger).pretty "ledger.json" = .ok ledger ∧
      readUnits (Encode.unit (.entity ownerless)).compact "account.json" =
        .error (.invalid "Account" (.untargetedReference "owner")) ∧
      readUnits (list Encode.unit (ledger ++ [.entity ownerless])).compact "both.json" =
        .error (.invalid "Account" (.untargetedReference "owner")) := by
  have hvalid := (firstFault?_eq_none_iff ledger).1 (by decide +kernel)
  have hdefect : ownerless.defect? = some (.untargetedReference "owner") := by decide +kernel
  have hledger := readUnits_stored (.many ledger) (by decide) "ledger.json"
  have howner := readUnits_stored (.one (.entity ownerless)) (by decide) "account.json"
  have hboth := readUnits_stored (.many (ledger ++ [.entity ownerless])) (by decide) "both.json"
  refine ⟨(hledger.2.2 _ hledger.2.1).1 hvalid, ?_, ?_⟩
  · exact (howner.2.2 _ howner.1).2 [] ownerless [] _ rfl (by simp) hdefect
  · exact (hboth.2.2 _ hboth.1).2 ledger ownerless [] _ rfl hvalid hdefect

end Concord.Source
