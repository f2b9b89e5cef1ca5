/-
Entities of records. An enumeration without values is none, no type word stands for keys or
enumerations, and of several fields of one name the first counts; so the entity of a record is
acceptable whatever the source says (`defect?_entityOf?`), and implementations leave it so.
-/
import Concord.Proofs.Order.KeyMap
import Concord.Proofs.Source.Entity
import Concord.Source.Braced.Model

namespace Concord.Source.Braced

open Text

/-! ## Fields -/

/-- Every enumeration has a value. -/
def Valued (constants : Constants) : Prop :=
  ∀ name values, constants.get? name = some values → values ≠ []

theorem valued_constantsOf (items : List Item) : Valued (constantsOf items) := by
  intro name values h
  have hmem := KeyMap.mem_of_mem_sortMembers (KeyMap.mem_members_of_get? h)
  obtain ⟨item, -, hchoice⟩ := List.mem_filterMap.1 hmem
  split at hchoice
  · cases hchoice
    exact List.cons_ne_nil _ _
  · cases hchoice

/-- The type words stand for types that ask for nothing more. -/
theorem plain_of_typeWord? {word : Text} {b : BaseType} (h : typeWord? word = some b) :
    b ≠ .reference ∧ b ≠ .enumerated := by
  have hwords : ∀ w ∈ typeWords, w.1 ≠ .reference ∧ w.1 ≠ .enumerated := by decide
  obtain ⟨w, hfind, rfl⟩ := Option.map_eq_some_iff.1 h
  exact hwords w (List.mem_of_find?_eq_some hfind)

section Fields

variable (constants : Constants) (name : String)

@[simp]
theorem name_fieldOfBase (t : Text) : (fieldOfBase constants name t).name = name := by
  unfold fieldOfBase
  dsimp only
  split
  · rfl
  · split <;> rfl

theorem complete_fieldOfBase {constants : Constants} (h : Valued constants) (t : Text) :
    (fieldOfBase constants name t).Complete := by
  unfold fieldOfBase
  dsimp only
  split
  · rename_i values hvalues
    simpa [Field.complete_iff, Field.choosing, Field.plain] using h _ values hvalues
  · split
    · rename_i b hword
      simp [Field.complete_iff, Field.plain, plain_of_typeWord? hword]
    · simp [Field.complete_iff, Field.plain]

@[simp]
theorem name_fieldFrom (fuel : Nat) (type : Text) :
    (fieldFrom constants name fuel type).name = name := by
  induction fuel generalizing type with
  | zero => exact name_fieldOfBase constants name type
  | succ fuel ih =>
    unfold fieldFrom
    dsimp only
    split
    · exact ih _
    split
    · exact ih _
    split
    · rfl
    split
    · rfl
    · exact name_fieldOfBase constants name _

theorem complete_fieldFrom {constants : Constants} (h : Valued constants) (fuel : Nat)
    (type : Text) : (fieldFrom constants name fuel type).Complete := by
  induction fuel generalizing type with
  | zero =>
    have hbase := complete_fieldOfBase name h type
    exact ⟨hbase.targeted, hbase.valued⟩
  | succ fuel ih =>
    unfold fieldFrom
    dsimp only
    split
    · exact ⟨(ih _).targeted, (ih _).valued⟩
    split
    · exact ⟨(ih _).targeted, (ih _).valued⟩
    split
    · simp [Field.complete_iff, Field.plain]
    split
    · simp [Field.complete_iff, Field.plain]
    · have hbase := complete_fieldOfBase name h (dereferenced type)
      exact ⟨hbase.targeted, hbase.valued⟩

end Fields

/-- Fields of an acceptable entity. -/
structure Acceptable (fields : List Field) : Prop where
  named : ∀ f ∈ fields, allBlank f.name.toList = false
  distinct : (fields.map Field.name).Nodup
  complete : ∀ f ∈ fields, f.Complete

theorem Acceptable.addField {constants : Constants} (hconstants : Valued constants)
    {fields : List Field} (h : Acceptable fields) (declared : Name × Text) :
    Acceptable (addField constants fields declared) := by
  unfold Braced.addField
  dsimp only
  split
  · exact h
  · rename_i hnew
    rw [Bool.not_eq_true] at hnew
    have hnamed : allBlank declared.1.text = false := declared.1.named
    refine ⟨?_, Entity.nodup_names_append h.distinct ?_, ?_⟩
    · intro f hf
      rcases List.mem_append.1 hf with hf | hf
      · exact h.named f hf
      · rw [List.mem_singleton.1 hf]
        simpa [fieldOfType] using hnamed
    · simpa [fieldOfType] using hnew
    · intro f hf
      rcases List.mem_append.1 hf with hf | hf
      · exact h.complete f hf
      · rw [List.mem_singleton.1 hf]
        exact complete_fieldFrom _ hconstants _ _

theorem Acceptable.foldl {constants : Constants} (hconstants : Valued constants)
    (declared : List (Name × Text)) {fields : List Field} (h : Acceptable fields) :
    Acceptable (declared.foldl (Braced.addField constants) fields) := by
  induction declared generalizing fields with
  | nil => exact h
  | cons d rest ih => exact ih (h.addField hconstants d)

/-! ## Entities -/

theorem defect?_entityOf? {constants : Constants} (hconstants : Valued constants) {origin : String}
    {item : Item} {e : Entity} (h : entityOf? constants origin item = some e) : e.defect? = none := by
  unfold entityOf? at h
  split at h
  · rename_i name fields
    cases h
    have hfields := Acceptable.foldl hconstants fields
      (⟨by simp, by simp, by simp⟩ : Acceptable [])
    rw [Entity.defect?_eq_none_iff]
    exact ⟨⟨by simpa using name.named, hfields.named, hfields.distinct, by simp⟩, hfields.complete⟩
  · cases h

theorem named_of_methodOf? {owner : Text} {f : Function} {m : Method}
    (h : methodOf? owner f = some m) : allBlank m.name.toList = false := by
  unfold methodOf? at h
  simp only [Option.bind_eq_bind, Option.bind_eq_some_iff] at h
  obtain ⟨texts, -, h⟩ := h
  cases h
  simpa using f.name.named

theorem defect?_implement {interface : Option Text} {functions : List Function} {e e' : Entity}
    (he : e.defect? = none) (h : implement interface functions e = some e') : e'.defect? = none := by
  unfold implement at h
  simp only [Option.bind_eq_bind, Option.bind_eq_some_iff] at h
  obtain ⟨methods, hmethods, h⟩ := h
  cases h
  rw [Entity.defect?_eq_none_iff] at he ⊢
  have hnamed := he.1.withMethods fun m hm =>
    let ⟨_, _, hf⟩ := exists_of_mapM_eq_some hmethods hm
    named_of_methodOf? hf
  exact ⟨⟨hnamed.name, hnamed.fields, hnamed.distinct, hnamed.methods⟩, he.2⟩

/-- What an implementation keeps of every entity, it keeps of all. -/
theorem implementFirst_keeps {P : Entity → Prop} {f : Entity → Option Entity}
    (hf : ∀ e e', P e → f e = some e' → P e') {name : String} {entities after : List Entity}
    (hall : ∀ e ∈ entities, P e) (h : implementFirst name f entities = some after) :
    ∀ e ∈ after, P e := by
  induction entities generalizing after with
  | nil =>
    cases h
    exact hall
  | cons e rest ih =>
    rw [List.forall_mem_cons] at hall
    unfold implementFirst at h
    split at h
    · obtain ⟨e', he', rfl⟩ := Option.map_eq_some_iff.1 h
      exact List.forall_mem_cons.2 ⟨hf e e' hall.1 he', hall.2⟩
    · obtain ⟨rest', hrest', rfl⟩ := Option.map_eq_some_iff.1 h
      exact List.forall_mem_cons.2 ⟨hall.1, ih hall.2 hrest'⟩

/-- Every entity of a source is acceptable. -/
theorem defect?_of_mem_entities? {origin : String} {items : List Item} {entities : List Entity}
    (h : entities? origin items = some entities) : ∀ e ∈ entities, e.defect? = none := by
  refine foldlM_keeps (P := fun es : List Entity => ∀ e ∈ es, e.defect? = none) ?_ ?_ h
  · intro item _ es es' hes hstep
    split at hstep
    · exact implementFirst_keeps (fun _ _ he => defect?_implement he) hes hstep
    · cases hstep
      exact hes
  · intro e he
    obtain ⟨item, -, hitem⟩ := List.mem_filterMap.1 he
    exact defect?_entityOf? (valued_constantsOf _) hitem

end Concord.Source.Braced
