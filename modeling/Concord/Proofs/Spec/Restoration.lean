/-
Specifications from their documents. A document lists the fields by name and keeps of
their types the innermost one; whether a field is required decides again whether its type
has a value for nothing. So what is restored is the specification with its fields by name and
their types settled in this way (`ofDocument_document`), and the same document is made of
it.
-/
import Concord.Proofs.Source.Entity
import Concord.Proofs.Spec.Document

namespace Concord.Spec

open Text

/-! ## Sound fields -/

/-- What is asked of a field on its own. -/
structure SoundField (f : Field) : Prop where
  named : allBlank f.name.toList = false
  targeted : f.type.root = .reference → f.reference ≠ none
  valued : f.type.root = .enumerated → f.values ≠ []

theorem fieldDefect?_eq_none_iff (seen : List String) (f : Field) :
    fieldDefect? seen f = none ↔ SoundField f ∧ f.name ∉ seen := by
  unfold fieldDefect?
  constructor
  · intro h
    split at h
    · cases h
    split at h
    · cases h
    split at h
    · cases h
    split at h
    · cases h
    rename_i hnamed hnew htarget hvalues
    exact ⟨⟨by simpa using hnamed, by simpa using htarget, by simpa using hvalues⟩,
      by simpa using hnew⟩
  · rintro ⟨⟨hnamed, htarget, hvalues⟩, hnew⟩
    have hreference : ¬(f.type.root = .reference ∧ f.reference = none) := fun h => htarget h.1 h.2
    have henumerated : ¬(f.type.root = .enumerated ∧ f.values = []) := fun h => hvalues h.1 h.2
    simp [hnamed, hnew, hreference, henumerated]

/-- Fields are sound as they stand exactly when each is sound and no two have one name. -/
theorem fieldsDefect?_nil_iff (fs : List Field) : fieldsDefect? [] fs = none ↔
    (∀ f ∈ fs, SoundField f) ∧ (fs.map Field.name).Nodup := by
  rw [Schema.check_eq_none_iff (fun _ => rfl) (fun _ _ _ => rfl) fieldDefect?_eq_none_iff]
  simp

theorem defect?_eq_none_iff (entity : String) (fields : List Field) (actions : List Action) :
    defect? entity fields actions = none ↔
      allBlank entity.toList = false ∧ fieldsDefect? [] fields = none ∧
        actionsDefect? [] actions = none := by
  unfold defect?
  split <;> simp_all

/-! ## One field -/

/-- The number of nullable layers of a type. -/
def FieldType.layers : FieldType → Nat
  | .base _ => 0
  | .nullable t => t.layers + 1

/-- A field whose type and requirement say the same, with at most one nullable layer. -/
structure Field.Coherent (f : Field) : Prop where
  required : f.required = true ↔ f.type.isNullable = false
  layers : f.type.layers ≤ 1

instance (f : Field) : Decidable f.Coherent :=
  decidable_of_iff ((f.required = true ↔ f.type.isNullable = false) ∧ f.type.layers ≤ 1)
    ⟨fun h => ⟨h.1, h.2⟩, fun h => ⟨h.1, h.2⟩⟩

/-- A field with the type that its innermost type and its requirement give. -/
def Field.restored (f : Field) : Field :=
  { f with type := if f.required then .base f.type.root else .nullable (.base f.type.root) }

theorem ofText_name (b : BaseType) : FieldType.ofText b.name = .ok (.base b) := by
  cases b <;> rfl

theorem field_document (f : Field) : f.document.field f.name = .ok f.restored := by
  simp only [Field.document, FieldDocument.field, ofText_name]
  rfl

theorem root_restored (f : Field) : f.restored.type.root = f.type.root := by
  cases h : f.required <;> simp [Field.restored, h, FieldType.root]

theorem document_restored (f : Field) : f.restored.document = f.document := by
  simp only [Field.document, root_restored]
  rfl

theorem SoundField.restored {f : Field} (h : SoundField f) : SoundField f.restored where
  named := h.named
  targeted := by rw [root_restored]; exact h.targeted
  valued := by rw [root_restored]; exact h.valued

/-- A coherent field is restored as it was. -/
theorem Field.Coherent.restored_eq {f : Field} (h : f.Coherent) : f.restored = f := by
  obtain ⟨name, type, required, default, reference, values, validations⟩ := f
  obtain ⟨hrequired, hlayers⟩ := h
  cases type with
  | base b => simp_all [Field.restored, FieldType.isNullable, FieldType.root]
  | nullable t =>
    cases t with
    | base b => simp_all [Field.restored, FieldType.isNullable, FieldType.root]
    | nullable u =>
      simp only [FieldType.layers] at hlayers
      omega

/-! ## Fields by name -/

/-- Fields in the order of their names. -/
def byName (fs : List Field) : List Field := fs.mergeSort fun a b => a.name ≤ b.name

theorem perm_byName (fs : List Field) : (byName fs).Perm fs := List.mergeSort_perm _ _

theorem pairwise_byName {fs : List Field} (h : (fs.map Field.name).Nodup) :
    (byName fs).Pairwise fun a b => a.name < b.name := by
  have hle : (byName fs).Pairwise fun a b => decide (a.name ≤ b.name) = true := by
    refine List.pairwise_mergeSort ?_ ?_ fs
    · intro a b c hab hbc
      simp only [decide_eq_true_eq] at hab hbc ⊢
      exact String.le_trans hab hbc
    · intro a b
      simpa using String.le_total a.name b.name
  have hne : (byName fs).Pairwise fun a b => a.name ≠ b.name :=
    List.pairwise_map.1 (((perm_byName fs).map Field.name).nodup_iff.2 h)
  refine (hle.and hne).imp fun {a b} hab => ?_
  by_contra hlt
  exact hab.2 (String.le_antisymm (by simpa using hab.1) (String.not_lt.1 hlt))

/-- A field as a member of a document. -/
def Field.entry (f : Field) : String × FieldDocument := (f.name, f.document)

/-- The fields of a document are those of the specification, in the order of their names. -/
theorem members_ofList_entry {fs : List Field} (h : (fs.map Field.name).Nodup) :
    (KeyMap.ofList (fs.map Field.entry)).members = (byName fs).map Field.entry := by
  have hkeys : ((fs.map Field.entry).map Prod.fst).Nodup := by
    rw [List.map_map]
    exact h
  have hincreasing : KeyMap.Increasing ((byName fs).map Field.entry) := by
    unfold KeyMap.Increasing
    rw [List.map_map]
    exact List.pairwise_map.2 (pairwise_byName h)
  have hperm := (KeyMap.perm_ofList hkeys).trans ((perm_byName fs).map Field.entry).symm
  exact congrArg KeyMap.members (KeyMap.eq_of_perm (n := ⟨_, hincreasing⟩) hperm)

end Concord.Spec

namespace Concord.Specification

open Spec

theorem sound_fields (s : Specification) : (∀ f ∈ s.fields, SoundField f) ∧
    (s.fields.map Field.name).Nodup :=
  (fieldsDefect?_nil_iff s.fields).1 ((defect?_eq_none_iff _ _ _).1 s.sound).2.1

/-- Other fields of the same names are as sound as those of a specification. -/
theorem sound_of_perm (s : Specification) {fields : List Field}
    (hnames : (fields.map Field.name).Perm (s.fields.map Field.name))
    (hfields : ∀ f ∈ fields, SoundField f) : defect? s.entity fields s.actions = none := by
  obtain ⟨hentity, -, hactions⟩ := (defect?_eq_none_iff _ _ _).1 s.sound
  refine (defect?_eq_none_iff _ _ _).2 ⟨hentity, ?_, hactions⟩
  exact (fieldsDefect?_nil_iff _).2 ⟨hfields, hnames.nodup_iff.2 s.sound_fields.2⟩

/-- A specification with its fields in the order of their names. -/
def byName (s : Specification) : Specification :=
  { s with
    fields := Spec.byName s.fields
    sound := s.sound_of_perm ((perm_byName _).map _) fun f hf =>
      s.sound_fields.1 f ((perm_byName _).subset hf) }

/-- A specification with its fields restored, in the order of their names. -/
def restored (s : Specification) : Specification :=
  { s with
    fields := (Spec.byName s.fields).map Field.restored
    sound := by
      refine s.sound_of_perm ?_ fun f hf => ?_
      · rw [List.map_map]
        exact (perm_byName _).map Field.name
      · obtain ⟨g, hg, rfl⟩ := List.mem_map.1 hf
        exact (s.sound_fields.1 g ((perm_byName _).subset hg)).restored }

theorem make_of_sound {entity space : String} {fields : List Field} {actions : List Action}
    {format : Source.Format} (h : defect? entity fields actions = none) :
    make entity space fields actions format =
      .ok ⟨entity, space, fields, actions, .empty, format, h⟩ := by
  unfold make
  split
  · rename_i d hd
    rw [h] at hd
    cases hd
  · rfl

theorem make_eq_ok {entity space : String} {fields : List Field} {actions : List Action}
    {format : Source.Format} {s : Specification}
    (h : make entity space fields actions format = .ok s) :
    s.fields = fields ∧ s.actions = actions := by
  unfold make at h
  split at h
  · cases h
  · cases h
    exact ⟨rfl, rfl⟩

theorem mapM_field (entity : String) (fs : List Field) :
    (fs.map Field.entry).mapM (fun m => (m.2.field m.1).mapError fun text =>
      (entity, Schema.Defect.unknownType text)) = Except.ok (fs.map Field.restored) := by
  have hentry : ((fun m : String × FieldDocument => (m.2.field m.1).mapError fun text =>
      (entity, Schema.Defect.unknownType text)) ∘ Field.entry) = fun f => pure f.restored := by
    funext f
    simp only [Function.comp_apply, Field.entry, field_document]
    rfl
  rw [List.mapM_map, hentry, List.mapM_pure]
  rfl

/-- The document of a specification describes that specification, restored. -/
theorem ofDocument_document (s : Specification) : ofDocument s.document = .ok s.restored := by
  have hversion : ¬schemaVersion < s.document.version := Nat.lt_irrefl _
  have hmembers : s.document.fields.members = (Spec.byName s.fields).map Field.entry :=
    members_ofList_entry s.sound_fields.2
  have hmake : make s.document.entity s.document.space ((Spec.byName s.fields).map Field.restored)
      s.document.actions (s.document.format.getD .unknown) =
      .ok ⟨s.entity, s.space, s.restored.fields, s.actions, .empty, s.format, s.restored.sound⟩ :=
    make_of_sound s.restored.sound
  have htags : Pattern.Tags.ofList s.document.tags = s.tags := Pattern.Tags.ofList_toList s.tags
  unfold ofDocument
  simp only [if_neg hversion, hmembers, mapM_field]
  show (make _ _ _ _ _).bind _ = _
  rw [hmake]
  show Except.ok (withTags _ _) = _
  rw [htags]
  rfl

theorem document_restored (s : Specification) : s.restored.document = s.document := by
  have hentries : s.restored.fields.map Field.entry = (Spec.byName s.fields).map Field.entry := by
    simp only [restored, List.map_map]
    refine List.map_congr_left fun f _ => ?_
    simp only [Function.comp_apply, Field.entry, Spec.document_restored]
    rfl
  have hkeys : ((s.fields.map Field.entry).map Prod.fst).Nodup := by
    rw [List.map_map]
    exact s.sound_fields.2
  have hfields : KeyMap.ofList (s.restored.fields.map Field.entry) =
      KeyMap.ofList (s.fields.map Field.entry) := by
    rw [hentries]
    exact (KeyMap.ofList_perm hkeys ((perm_byName s.fields).map Field.entry).symm).symm
  unfold document
  congr 1

/-- Coherent fields are restored as they were. -/
theorem restored_eq_byName {s : Specification} (h : ∀ f ∈ s.fields, f.Coherent) :
    s.restored = s.byName := by
  have hfields : (Spec.byName s.fields).map Field.restored = Spec.byName s.fields := by
    rw [List.map_congr_left fun f hf => (h f ((perm_byName _).subset hf)).restored_eq]
    exact List.map_id _
  simp only [restored, byName, hfields]

/-- **A document gives its specification back.** Whatever the steps, patterns and format, the
document of a specification is read back from the JSON that is written of it. The specification it
describes has the same document, hence the same canonical text; and where no field's type says
anything else than its requirement, it is the one the document was made of, with its fields by
name. -/
theorem document_roundtrip (s : Specification) :
    Spec.Decode.document (Spec.Encode.document s.document) = some s.document ∧
    ∃ t, ofDocument s.document = .ok t ∧ t.document = s.document ∧
      t.canonicalText = s.canonicalText ∧ ((∀ f ∈ s.fields, f.Coherent) → t = s.byName) := by
  have hversion : s.document.version < Nat.pow 2 32 := by
    show schemaVersion < Nat.pow 2 32
    decide
  refine ⟨document_document s.document hversion, s.restored, ofDocument_document s,
    document_restored s, ?_, restored_eq_byName⟩
  unfold canonicalText
  rw [document_restored]

/-- An entity with fields that are not in the order of their names, and with nested steps. -/
def ticket : Specification where
  entity := "Ticket"
  space := "desk"
  fields := [
    { name := "state", type := .base .enumerated, required := true, values := ["open", "done"] },
    { name := "owner", type := .nullable (.base .reference), required := false,
      reference := some "Agent" }]
  actions := [{
    name := "close"
    steps := [.validate "state == 'open'" none,
      .branch "owner" [.iterate "watchers" [.invoke "notify(w)" true]] [.give none]] }]
  tags := .ofList [.statusLifecycle, .multiTenant]
  format := .rust
  sound := by decide

theorem document_roundtrip_ticket : ofDocument ticket.document = .ok ticket.byName ∧
    Spec.Decode.document (Spec.Encode.document ticket.document) = some ticket.document := by
  obtain ⟨hread, t, ht, -, -, hcoherent⟩ := document_roundtrip ticket
  have hfields : ∀ f ∈ ticket.fields, f.Coherent := by decide
  exact ⟨hcoherent hfields ▸ ht, hread⟩

end Concord.Specification
