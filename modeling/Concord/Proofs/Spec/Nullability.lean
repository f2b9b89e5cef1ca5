/-
Nullable and required fields of documents. A document says twice whether a field may have no value:
by its requirement, and by a type that may be spelled as nullable. Reading makes every field nullable that
is not required, but it leaves a required field the nullable type that its text spells. So a
document is read into fields that are required exactly when their types are not nullable, and these
come back from the document made of them, if and only if it spells no required field as nullable
(`ofDocument_nullable_iff`).
-/
import Concord.Proofs.Spec.Restoration

namespace Concord.Spec

open Text

/-! ## Types from texts -/

namespace FieldType

theorem isNullable_orNull (t : FieldType) : t.orNull.isNullable = true := by
  cases t <;> rfl

theorem layers_orNull_le {t : FieldType} (h : t.layers ≤ 1) : t.orNull.layers ≤ 1 := by
  cases t with
  | base b => exact Nat.le_refl 1
  | nullable t => exact h

/-- However often a text says nullable, the type has one such layer. -/
theorem layers_of_ofTextFrom {fuel : Nat} {t : Text} {type : FieldType}
    (h : ofTextFrom fuel t = .ok type) : type.layers ≤ 1 := by
  induction fuel generalizing t type with
  | zero => cases h
  | succ fuel ih =>
    rw [ofTextFrom] at h
    split at h
    · rename_i inner _
      cases hinner : ofTextFrom fuel inner with
      | error text => simp [hinner, Except.map] at h
      | ok body =>
        rw [hinner] at h
        cases h
        exact layers_orNull_le (ih hinner)
    · split at h
      · cases h
        exact Nat.zero_le 1
      · cases h

/-- A type is nullable exactly when its text begins and ends as that of one. -/
theorem isNullable_of_ofTextFrom {fuel : Nat} {t : Text} {type : FieldType}
    (h : ofTextFrom fuel t = .ok type) : type.isNullable = (nullableBody? (trim t)).isSome := by
  cases fuel with
  | zero => cases h
  | succ fuel =>
    rw [ofTextFrom] at h
    split at h
    · rename_i inner hbody
      cases hinner : ofTextFrom fuel inner with
      | error text => simp [hinner, Except.map] at h
      | ok body =>
        rw [hinner] at h
        cases h
        rw [isNullable_orNull, hbody]
        rfl
    · rename_i hbody
      split at h
      · cases h
        rw [hbody]
        rfl
      · cases h

end FieldType

/-! ## One field -/

/-- Whether the text of a field's type is that of a nullable one. -/
def FieldDocument.saysNullable (d : FieldDocument) : Bool :=
  (FieldType.nullableBody? (trim d.type.toList)).isSome

/-- Whether the type and the requirement of a field say the same. -/
def Field.Settled (f : Field) : Prop := f.required = true ↔ f.type.isNullable = false

/-- What a field says of its values: its type and whether there must be one. -/
def Field.demand (f : Field) : String × FieldType × Bool := (f.name, f.type, f.required)

/-- What is read of a field. -/
structure ReadAs (m : String × FieldDocument) (f : Field) : Prop where
  name : f.name = m.1
  required : f.required = m.2.required
  nullable : f.type.isNullable = (!m.2.required || m.2.saysNullable)
  layers : f.type.layers ≤ 1

theorem readAs_of_field {m : String × FieldDocument} {f : Field} (h : m.2.field m.1 = .ok f) :
    ReadAs m f := by
  unfold FieldDocument.field at h
  cases htype : FieldType.ofText m.2.type with
  | error text => simp [htype, Except.map] at h
  | ok type =>
    have hlayers := FieldType.layers_of_ofTextFrom htype
    have hnullable : type.isNullable = m.2.saysNullable := FieldType.isNullable_of_ofTextFrom htype
    rw [htype] at h
    cases h
    refine ⟨rfl, rfl, ?_, ?_⟩
    · cases m.2.required
      · exact FieldType.isNullable_orNull type
      · exact hnullable
    · cases m.2.required
      · exact FieldType.layers_orNull_le hlayers
      · exact hlayers

/-- A field is settled exactly when it is not both required and spelled as nullable. -/
theorem ReadAs.settled_iff {m : String × FieldDocument} {f : Field} (h : ReadAs m f) :
    f.Settled ↔ (m.2.required = true → m.2.saysNullable = false) := by
  rw [Field.Settled, h.required, h.nullable]
  cases m.2.required <;> simp

/-- A field with one nullable layer at most is restored with its type exactly when it is settled. -/
theorem demand_restored_iff {f : Field} (hlayers : f.type.layers ≤ 1) :
    f.restored.demand = f.demand ↔ f.Settled := by
  constructor
  · intro h
    have htype : f.restored.type = f.type := congrArg (fun d => d.2.1) h
    rw [Field.Settled, ← htype]
    cases hrequired : f.required <;> simp [Field.restored, hrequired, FieldType.isNullable]
  · intro h
    have hcoherent : f.Coherent := ⟨h, hlayers⟩
    rw [hcoherent.restored_eq]

/-- No required field is spelled as nullable. -/
def Document.Settled (d : Document) : Prop :=
  ∀ m ∈ d.fields.members, m.2.required = true → m.2.saysNullable = false

end Concord.Spec

namespace Concord.Specification

open Spec

/-! ## All fields -/

variable {d : Document} {s : Specification}

/-- The fields of a specification are those of its document, in their order. -/
theorem forall₂_of_ofDocument (h : ofDocument d = .ok s) :
    List.Forall₂ ReadAs d.fields.members s.fields := by
  unfold ofDocument at h
  simp only [bind, Except.bind, pure, Except.pure] at h
  split at h
  · cases h
  · split at h
    · cases h
    · rename_i fields hfields
      split at h
      · cases h
      · rename_i made hmade
        cases h
        show List.Forall₂ _ _ made.fields
        rw [(make_eq_ok hmade).1]
        refine (forall₂_of_mapM_ok hfields).imp fun m f hmf => ?_
        cases hfield : m.2.field m.1 with
        | error text => simp [hfield, Except.mapError] at hmf
        | ok g =>
          rw [hfield] at hmf
          cases hmf
          exact readAs_of_field hfield

/-- A specification that is read has its fields in the order of their names. -/
theorem byName_fields (h : List.Forall₂ ReadAs d.fields.members s.fields) :
    Spec.byName s.fields = s.fields := by
  have hnames : d.fields.members.map Prod.fst = s.fields.map Field.name := by
    rw [← List.forall₂_eq_eq_eq, List.forall₂_map_left_iff, List.forall₂_map_right_iff]
    exact h.imp fun m f hread => hread.name.symm
  have hincreasing : (s.fields.map Field.name).Pairwise fun a b => a < b := by
    rw [← hnames]
    exact d.fields.increasing
  refine List.mergeSort_of_pairwise ((List.pairwise_map.1 hincreasing).imp fun hlt => ?_)
  simpa using String.not_lt.1 fun hgt => String.lt_irrefl _ (String.lt_trans hlt hgt)

theorem forall_settled_iff (h : List.Forall₂ ReadAs d.fields.members s.fields) :
    (∀ f ∈ s.fields, f.Settled) ↔ d.Settled := by
  unfold Document.Settled
  generalize d.fields.members = members at h
  generalize s.fields = fields at h
  induction h with
  | nil => simp
  | cons hread _ ih => rw [List.forall_mem_cons, List.forall_mem_cons, hread.settled_iff, ih]

/-- **Reading a document settles what it does not contradict.** The fields of the specification are required
exactly when their types are not nullable if and only if the document spells no required field as
nullable. The document of that specification is accepted again, and gives the same types and
requirements under the same condition. -/
theorem ofDocument_nullable_iff (d : Document) (s : Specification) (h : ofDocument d = .ok s) :
    ((∀ f ∈ s.fields, f.required = true ↔ f.type.isNullable = false) ↔ d.Settled) ∧
      ∃ t, ofDocument s.document = .ok t ∧
        (t.fields.map Field.demand = s.fields.map Field.demand ↔ d.Settled) := by
  have hfields := forall₂_of_ofDocument h
  refine ⟨forall_settled_iff hfields, s.restored, ofDocument_document s, ?_⟩
  have hlayers : ∀ f ∈ s.fields, f.type.layers ≤ 1 := fun f hf => by
    obtain ⟨m, -, hread⟩ := exists_of_forall₂ hfields hf
    exact hread.layers
  have hrestored : s.restored.fields = s.fields.map Field.restored := by
    show (Spec.byName s.fields).map Field.restored = _
    rw [byName_fields hfields]
  rw [hrestored, List.map_map, List.map_inj_left, ← forall_settled_iff hfields]
  exact forall₂_congr fun f hf => demand_restored_iff (hlayers f hf)

/-- A document whose optional field is spelled as nullable. -/
def draft : Document where
  entity := "Draft"
  fields := .ofList [
    ("title", { type := " text ", required := true }),
    ("note", { type := "nullable<nullable<text>>", required := false })]

/-- A document whose required field is spelled as nullable. -/
def memo : Document where
  entity := "Memo"
  fields := .ofList [("note", { type := "nullable<text>", required := true })]

/-- What the fields that are read of a document say of their values. -/
def demands? (d : Document) : Option (List (String × FieldType × Bool)) :=
  (ofDocument d).toOption.map fun s => s.fields.map Field.demand

theorem ofDocument_nullable_draft : ∃ s t, ofDocument draft = .ok s ∧ ofDocument s.document = .ok t ∧
    (∀ f ∈ s.fields, f.required = true ↔ f.type.isNullable = false) ∧
    t.fields.map Field.demand = s.fields.map Field.demand ∧
    s.fields.map Field.demand =
      [("note", .nullable (.base .text), false), ("title", .base .text, true)] := by
  have hread : demands? draft =
      some [("note", .nullable (.base .text), false), ("title", .base .text, true)] := by
    decide +kernel
  have hsettled : draft.Settled := by
    unfold Document.Settled
    decide +kernel
  obtain ⟨s, hs, hdemands⟩ := Option.map_eq_some_iff.1 hread
  have hs : ofDocument draft = .ok s := by
    cases h : ofDocument draft with
    | error refusal => simp [h, Except.toOption] at hs
    | ok t => simpa [h, Except.toOption] using hs
  obtain ⟨hnullable, t, ht, hsame⟩ := ofDocument_nullable_iff draft s hs
  exact ⟨s, t, hs, ht, hnullable.2 hsettled, hsame.2 hsettled, hdemands⟩

/-- The nullable type of a required field is kept when it is read, and gone when it is read again. -/
theorem requirement_contradicted :
    demands? memo = some [("note", .nullable (.base .text), true)] ∧
      ((ofDocument memo).toOption.bind fun s => demands? s.document) =
        some [("note", .base .text, true)] := by
  decide +kernel

end Concord.Specification
