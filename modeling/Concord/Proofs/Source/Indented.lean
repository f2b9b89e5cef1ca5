/-
Entities of classes. Their names are names of the source, and of several declarations of one
field the first counts, so all names are in order whatever a class says. A field is complete
unless its type is given by a name and nothing else, and that name is one for keys, one for
enumerations or that of a class without constants (`complete_iff_of_field?`). What one
statement adds to an entity is said once (`Gathered.addMember`), and what a class gives follows
by induction (`gathered_entityOf?`).
-/
import Concord.Proofs.Source.Entity
import Concord.Source.Indented.Model
import Mathlib.Data.Option.Basic

namespace Concord.Source.Indented

open Text

/-! ## Names of fields -/

section Names

variable (constants : Constants) (name : String)

@[simp]
theorem name_fieldOfType (type : Text) : (fieldOfType constants name type).name = name := by
  unfold fieldOfType
  dsimp only
  split
  · rfl
  · split <;> rfl

@[simp]
theorem name_fieldOfHint (hint : Text) : (fieldOfHint constants name hint).name = name :=
  name_fieldOfType constants name _

@[simp]
theorem name_columnOfType (type : Expression) : (columnOfType constants name type).name = name := by
  unfold columnOfType
  dsimp only
  split
  · rfl
  · split <;> exact name_fieldOfType constants name _

@[simp]
theorem name_fieldOfCall (c : Call) (hint : Option Text) :
    (fieldOfCall constants name c hint).name = name := by
  unfold fieldOfCall columnField madeField
  dsimp only
  split
  · split
    · rfl
    · split
      · exact name_columnOfType constants name _
      · exact name_fieldOfHint constants name _
      · rfl
  · split
    · rfl
    · split <;> rfl

end Names

/-- The field that an assignment declares is made by a call, or else by a type hint. -/
theorem fieldOf?_eq_some {constants : Constants} {target : Expression} {hint : Option Text}
    {value : Option Expression} {f : Field} (h : fieldOf? constants target hint value = some f) :
    ∃ name : Name,
      (∃ c, maker? value = some c ∧
        f = fieldOfCall constants (String.ofList name.text) c hint) ∨
      (∃ t, maker? value = none ∧ hint = some t ∧
        f = { fieldOfHint constants (String.ofList name.text) t with
          default := value.bind defaultOf? }) := by
  unfold fieldOf? at h
  split at h
  · rename_i name
    refine ⟨name, ?_⟩
    simp only [Option.bind_eq_bind, Option.bind_eq_some_iff] at h
    obtain ⟨-, -, h⟩ := h
    split at h
    · rename_i c hmaker
      exact .inl ⟨c, hmaker, (Option.some.inj h).symm⟩
    · rename_i t hmaker
      exact .inr ⟨t, hmaker, rfl, (Option.some.inj h).symm⟩
    · cases h
  · cases h

/-- A field that an assignment declares has the name that is assigned to. -/
theorem named_of_fieldOf? {constants : Constants} {target : Expression} {hint : Option Text}
    {value : Option Expression} {f : Field} (h : fieldOf? constants target hint value = some f) :
    allBlank f.name.toList = false := by
  obtain ⟨name, ⟨c, -, rfl⟩ | ⟨t, -, -, rfl⟩⟩ := fieldOf?_eq_some h
  · simpa using name.named
  · simpa using name.named

/-! ## Declarations by a name alone -/

/-- The words, in lower case, for keys and for enumerations in general. -/
def bareWords : List String := ["foreignkey", "onetoonefield", "enum"]

def isBareWord (name : Text) : Bool :=
  bareWords.any fun w => w.toList == lower (lastPart (before '[' name))

/-- Whether a name that gives the type of a field says too little: it stands for a class without
constants, or for keys or enumerations in general. -/
def isBareName (constants : Constants) (name : Text) : Bool :=
  !isCollection name &&
    match constants.get? (String.ofList name) with
    | some values => values.isEmpty
    | none => isBareWord name

/-- Whether a type hint says too little. -/
def isBareHint (constants : Constants) (hint : Text) : Bool := isBareName constants (unwrap hint).1

/-- Whether a call gives the type of its field by a name that says too little, with neither a
target nor values beside it. -/
def isBareCall (constants : Constants) (c : Call) (hint : Option Text) : Bool :=
  if c.isColumn then
    c.key?.isNone &&
      match c.arguments.head? with
      | some type =>
        (listedValues constants type).isEmpty && isBareName constants (argumentName type)
      | none => hint.any (isBareHint constants)
  else !c.isKey && (c.choices constants).isEmpty && isBareWord c.constructor

/-- Whether a declaration gives the type of its field by a name that says too little. -/
def isBareDeclaration (constants : Constants) (hint : Option Text) (value : Option Expression) :
    Bool :=
  match maker? value with
  | some c => isBareCall constants c hint
  | none => hint.any (isBareHint constants)

/-- The bare words are words of types, and of no types but those that ask for more. -/
theorem bareWords_typeWords : (∀ t ∈ bareWords, ∃ w ∈ typeWords, t ∈ w.2) ∧
    ∀ w ∈ typeWords, ∀ t ∈ w.2, t ∈ bareWords ↔ w.1 = .reference ∨ w.1 = .enumerated := by decide

theorem complete_plain_typeOf (name : String) (type : Text) :
    (Field.plain name (typeOf type)).Complete ↔ isBareWord type = false := by
  unfold typeOf isBareWord
  dsimp only
  generalize lower (lastPart (before '[' type)) = last
  split
  · rename_i base words hfind
    have hmem := List.mem_of_find?_eq_some hfind
    have hword := List.find?_some hfind
    obtain ⟨t, ht, hlast⟩ := List.any_eq_true.1 hword
    have hbare : (bareWords.any fun w => w.toList == last) = true ↔
        base = .reference ∨ base = .enumerated := by
      rw [← bareWords_typeWords.2 _ hmem t ht, List.any_eq_true]
      rw [beq_iff_eq] at hlast
      simp only [← hlast, beq_iff_eq, String.toList_inj]
      exact ⟨fun ⟨w, hw, hwt⟩ => hwt ▸ hw, fun h => ⟨t, h, rfl⟩⟩
    rw [← Bool.not_eq_true, hbare]
    simp [Field.complete_iff, Field.plain]
  · rename_i hfind
    have hnone : (bareWords.any fun w => w.toList == last) = false := by
      refine List.any_eq_false.2 fun t ht hlast => ?_
      obtain ⟨w, hw, htw⟩ := bareWords_typeWords.1 t ht
      exact List.find?_eq_none.1 hfind w hw (List.any_eq_true.2 ⟨t, htw, hlast⟩)
    simp [Field.complete_iff, Field.plain, hnone]

theorem complete_fieldOfType (constants : Constants) (name : String) (type : Text) :
    (fieldOfType constants name type).Complete ↔ isBareName constants type = false := by
  unfold fieldOfType isBareName
  dsimp only
  split
  · rename_i hcollection
    simp [Field.complete_iff, Field.plain, hcollection]
  · rename_i hplain
    cases constants.get? (String.ofList type) with
    | some values => simp [Field.complete_iff, Field.choosing, Field.plain, hplain]
    | none => simpa [Field.complete_iff, Field.plain, hplain] using complete_plain_typeOf name type

theorem complete_fieldOfHint (constants : Constants) (name : String) (hint : Text) :
    (fieldOfHint constants name hint).Complete ↔ isBareHint constants hint = false := by
  rw [isBareHint, ← complete_fieldOfType constants name, Field.complete_iff, Field.complete_iff]
  rfl

theorem complete_columnOfType (constants : Constants) (name : String) (type : Expression) :
    (columnOfType constants name type).Complete ↔
      ((listedValues constants type).isEmpty && isBareName constants (argumentName type)) = false := by
  unfold columnOfType
  dsimp only
  split
  · rename_i hlisted
    simp_all [Field.complete_iff, Field.choosing, Field.plain]
  · rename_i hnone
    rw [Bool.not_eq_true, Bool.not_eq_false'] at hnone
    rw [hnone, Bool.true_and, ← complete_fieldOfType constants name]
    split <;> rw [Field.complete_iff, Field.complete_iff]

theorem complete_columnField (constants : Constants) (name : String) (c : Call)
    (hint : Option Text) : (columnField constants name c hint).Complete ↔
      (c.key?.isNone &&
        match c.arguments.head? with
        | some type =>
          (listedValues constants type).isEmpty && isBareName constants (argumentName type)
        | none => hint.any (isBareHint constants)) = false := by
  unfold columnField
  split
  · rename_i hkey
    simp [Field.complete_iff, Field.pointing, Field.plain, hkey]
  · rename_i hkey
    rw [hkey, Option.isNone_none, Bool.true_and]
    split
    · rename_i hhead
      rw [hhead]
      exact complete_columnOfType constants name _
    · rename_i hhead
      rw [hhead]
      exact complete_fieldOfHint constants name _
    · rename_i hhead
      simp [hhead, Field.complete_iff, Field.plain]

theorem complete_madeField (constants : Constants) (name : String) (c : Call) :
    (madeField constants name c).Complete ↔
      (!c.isKey && (c.choices constants).isEmpty && isBareWord c.constructor) = false := by
  unfold madeField
  dsimp only
  split
  · rename_i hkey
    simp [Field.complete_iff, Field.pointing, Field.plain, hkey]
  · rename_i hkey
    split
    · rename_i hchoices
      simp_all [Field.complete_iff, Field.choosing, Field.plain]
    · rename_i hchoices
      rw [Bool.not_eq_true, Bool.not_eq_false'] at hchoices
      simpa [Field.complete_iff, Field.plain, hkey, hchoices] using
        complete_plain_typeOf name c.constructor

theorem complete_fieldOfCall (constants : Constants) (name : String) (c : Call)
    (hint : Option Text) :
    (fieldOfCall constants name c hint).Complete ↔ isBareCall constants c hint = false := by
  have hmade : (fieldOfCall constants name c hint).Complete ↔
      (if c.isColumn then columnField constants name c hint
        else madeField constants name c).Complete := by
    rw [Field.complete_iff, Field.complete_iff]
    rfl
  rw [hmade, isBareCall]
  split
  · exact complete_columnField constants name c hint
  · exact complete_madeField constants name c

/-- A declared field is complete unless its type is given by a name that says too little. -/
theorem complete_iff_of_fieldOf? {constants : Constants} {target : Expression}
    {hint : Option Text} {value : Option Expression} {f : Field}
    (h : fieldOf? constants target hint value = some f) :
    f.Complete ↔ isBareDeclaration constants hint value = false := by
  unfold isBareDeclaration
  obtain ⟨name, ⟨c, hmaker, rfl⟩ | ⟨t, hmaker, rfl, rfl⟩⟩ := fieldOf?_eq_some h
  · rw [hmaker]
    exact complete_fieldOfCall constants _ c hint
  · rw [hmaker, Option.any_some, ← complete_fieldOfHint constants (String.ofList name.text),
      Field.complete_iff, Field.complete_iff]

/-! ## Statements of a class -/

/-- The field that a statement of a class declares. -/
def Statement.field? (constants : Constants) : Statement → Option Field
  | .assign _ target hint value => fieldOf? constants target hint value
  | _ => none

/-- Whether a statement declares a field by a name that says too little. -/
def Statement.isBare (constants : Constants) : Statement → Bool
  | .assign _ _ hint value => isBareDeclaration constants hint value
  | _ => false

theorem complete_iff_of_field? {constants : Constants} {s : Statement} {f : Field}
    (h : s.field? constants = some f) : f.Complete ↔ s.isBare constants = false := by
  cases s with
  | assign => exact complete_iff_of_fieldOf? h
  | _ => cases h

/-- What an entity has gathered from a class: names in order, and fields that the class declares. -/
structure Gathered (constants : Constants) (body : List Statement) (e : Entity) : Prop where
  named : e.Named
  declared : ∀ f ∈ e.fields, ∃ s ∈ body, s.field? constants = some f

theorem named_of_methodOf? {decorations : List Text} {s : Signature} {body : List Statement}
    {m : Method} (h : methodOf? decorations s body = some m) : allBlank m.name.toList = false := by
  unfold methodOf? at h
  simp only [Option.bind_eq_bind, Option.bind_eq_some_iff] at h
  obtain ⟨doc, -, texts, -, h⟩ := h
  cases h
  simpa using s.name.named

namespace Gathered

variable {constants : Constants} {body : List Statement} {e e' : Entity}

theorem addField (h : Gathered constants body e) {s : Statement} (hs : s ∈ body) {f : Field}
    (hf : s.field? constants = some f) (hnamed : allBlank f.name.toList = false)
    (hnew : e.fields.any (·.name == f.name) = false) :
    Gathered constants body { e with fields := e.fields ++ [f] } where
  named := h.named.withField hnamed hnew
  declared g hg := by
    rcases List.mem_append.1 hg with hg | hg
    · exact h.declared g hg
    · rw [List.mem_singleton.1 hg]
      exact ⟨s, hs, hf⟩

theorem addMember (h : Gathered constants body e) {s : Statement} (hs : s ∈ body)
    (hadd : Indented.addMember constants e s = some e') : Gathered constants body e' := by
  unfold Indented.addMember at hadd
  split at hadd
  · -- the name of a table, which is no field
    cases hadd
    exact ⟨⟨h.named.name, h.named.fields, h.named.distinct, h.named.methods⟩, h.declared⟩
  · split at hadd
    · split at hadd
      · rename_i f hf
        split at hadd
        · cases hadd
          exact h
        · rename_i hnew
          cases hadd
          exact h.addField hs hf (named_of_fieldOf? hf) (Bool.eq_false_iff.2 hnew)
      · cases hadd
        exact h
    · simp only [Option.bind_eq_bind, Option.bind_eq_some_iff] at hadd
      obtain ⟨m, hm, hadd⟩ := hadd
      cases hadd
      refine ⟨h.named.withMethods ?_, h.declared⟩
      rintro _ (_ | ⟨_, ⟨⟩⟩)
      exact named_of_methodOf? hm
    · cases hadd
      exact h

end Gathered

/-- The entity of a class has gathered what the class declares. -/
theorem gathered_entityOf? {constants : Constants} {origin : String} {decorations : List Text}
    {heading : Heading} {body : List Statement} {e : Entity}
    (h : entityOf? constants origin decorations heading body = some e) :
    Gathered constants body e := by
  unfold entityOf? at h
  simp only [Option.bind_eq_bind, Option.bind_eq_some_iff] at h
  obtain ⟨doc, -, h⟩ := h
  refine foldlM_keeps (fun s hs e e' he hadd => Gathered.addMember he hs hadd) ?_ h
  constructor
  · exact ⟨by simpa using heading.name.named, by simp, by simp, by simp⟩
  · simp

/-- Every entity is that of a class among the statements. -/
theorem exists_of_mem_entities? {origin : String} {statements : List Statement}
    {entities : List Entity} (h : entities? origin statements = some entities) {e : Entity}
    (he : e ∈ entities) :
    ∃ extent decorations heading body, .record extent decorations heading body ∈ statements ∧
      entityOf? (constantsOf statements) origin decorations heading body = some e := by
  unfold entities? at h
  simp only [Option.bind_eq_bind, Option.bind_eq_some_iff] at h
  obtain ⟨all, hall, h⟩ := h
  cases h
  obtain ⟨⟨decorations, heading, body⟩, hmem, hentity⟩ :=
    exists_of_mapM_eq_some hall (List.mem_of_mem_filter he)
  obtain ⟨s, hs, hrecord⟩ := List.mem_filterMap.1 hmem
  split at hrecord
  · rename_i extent _ _ _
    split at hrecord
    · cases hrecord
    · cases hrecord
      exact ⟨extent, decorations, heading, body, hs, hentity⟩
  · cases hrecord

end Concord.Source.Indented
