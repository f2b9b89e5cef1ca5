/-
What the built-in readers give is acceptable, with one exception: a class may declare a field by
a name that says too little, such as the name of keys without a target, and no reader but that
of classes gives such a field (`parse_valid`, `bare_fields`). All of it holds of every grammar,
that is, of whatever syntax trees the sources have.
-/
import Concord.Proofs.Source.Braced
import Concord.Proofs.Source.Indented
import Concord.Source.Registry

namespace Concord.Source

variable {g : Grammar}

/-- A field of an entity that a class of the source declares by a name that says too little. -/
structure DeclaredBare (g : Grammar) (source origin : String) (e : Entity) (f : Field) : Prop where
  mem : f ∈ e.fields
  declared : ∃ statements extent decorations heading body,
    g.statements source origin = .ok statements ∧
      .record extent decorations heading body ∈ statements ∧
      Indented.entityOf? (Indented.constantsOf statements) origin decorations heading body = some e ∧
      ∃ s ∈ body, s.field? (Indented.constantsOf statements) = some f ∧
        s.isBare (Indented.constantsOf statements) = true

theorem valid_of_readIndentedModel {source origin : String} {units : List Unit}
    (h : readIndentedModel g source origin = .ok units) {e : Entity} (he : .entity e ∈ units) :
    e.Named ∧ (e.defect? = none ↔ ∀ f, ¬DeclaredBare g source origin e f) := by
  unfold readIndentedModel at h
  split at h
  · cases h
  rename_i statements hstatements
  split at h
  · cases h
  rename_i entities hentities
  cases h
  obtain ⟨e', hmem, heq⟩ := List.mem_map.1 he
  cases heq
  obtain ⟨extent, decorations, heading, body, hrecord, hentity⟩ :=
    Indented.exists_of_mem_entities? hentities hmem
  have hgathered := Indented.gathered_entityOf? hentity
  refine ⟨hgathered.named, ?_⟩
  rw [Entity.defect?_eq_none_iff, and_iff_right hgathered.named]
  constructor
  · rintro hcomplete f ⟨hf, statements', _, _, _, body', hstatements', -, -, s, -, hfield, hbare⟩
    have hplain := (Indented.complete_iff_of_field? hfield).1 (hcomplete f hf)
    rw [hplain] at hbare
    cases hbare
  · intro hnone f hf
    obtain ⟨s, hs, hfield⟩ := hgathered.declared f hf
    rw [Indented.complete_iff_of_field? hfield, ← Bool.not_eq_true]
    intro hbare
    exact hnone f ⟨hf, statements, extent, decorations, heading, body, hstatements, hrecord, hentity,
      s, hs, hfield, hbare⟩

theorem defect?_of_readBracedModel {source origin : String} {units : List Unit}
    (h : readBracedModel g source origin = .ok units) {e : Entity} (he : .entity e ∈ units) :
    e.defect? = none := by
  unfold readBracedModel at h
  split at h
  · cases h
  split at h
  · cases h
  rename_i entities hentities
  cases h
  obtain ⟨e', hmem, heq⟩ := List.mem_map.1 he
  cases heq
  exact Braced.defect?_of_mem_entities? hentities e hmem

theorem not_mem_of_readIndentedTests {source origin : String} {units : List Unit}
    (h : readIndentedTests g source origin = .ok units) (e : Entity) : .entity e ∉ units := by
  unfold readIndentedTests at h
  split at h
  · cases h
  split at h
  · cases h
  cases h
  simp

theorem firstFault?_eq_none_iff (units : List Unit) :
    firstFault? units = none ↔ ∀ e, .entity e ∈ units → e.defect? = none := by
  induction units with
  | nil => simp [firstFault?]
  | cons u rest ih => cases u <;> simp [firstFault?, ih, or_imp, forall_and]

theorem defect?_of_readUnits {source origin : String} {units : List Unit}
    (h : readUnits source origin = .ok units) {e : Entity} (he : .entity e ∈ units) :
    e.defect? = none := by
  unfold readUnits at h
  split at h
  · cases h
  split at h
  · cases h
  split at h
  · cases h
  rename_i hnone
  cases h
  exact (firstFault?_eq_none_iff _).1 hnone e he

/-- **The built-in readers give acceptable entities, but for fields of classes that are declared by
a name that says too little.** Whatever syntax trees the sources have, names are in order in every
entity. An entity passes its check exactly when it has no such field, and only the reader of classes
gives any. -/
theorem parse_valid (g : Grammar) (format : Format) (source origin : String) (units : List Unit)
    (h : (Registry.ofGrammar g).parse format source origin = .ok units) (e : Entity)
    (he : .entity e ∈ units) :
    e.Named ∧
      (e.defect? = none ↔ ¬(format = .python ∧ ∃ f, DeclaredBare g source origin e f)) := by
  have hsound : format ≠ .python → e.defect? = none → e.Named ∧
      (e.defect? = none ↔ ¬(format = .python ∧ ∃ f, DeclaredBare g source origin e f)) := by
    intro hformat hnone
    refine ⟨((Entity.defect?_eq_none_iff e).1 hnone).1, iff_of_true hnone fun hbare => ?_⟩
    exact hformat hbare.1
  cases format with
  | python =>
    have hvalid := valid_of_readIndentedModel h he
    simpa using hvalid
  | pytest => exact absurd he (not_mem_of_readIndentedTests h e)
  | rust => exact hsound nofun (defect?_of_readBracedModel h he)
  | ir => exact hsound nofun (defect?_of_readUnits h he)
  | _ => cases h

/-- A class with a key of a known target, an enumeration with values, and a key of no target. -/
def leadClass : String :=
  "class Lead(Base):\n    company = Column(ForeignKey('companies.id'))\n" ++
    "    state = Column(Enum('open', 'won'))\n    owner: Optional[ForeignKey]\n"

theorem parse_valid_lead :
    ∃ units e, (Registry.ofGrammar .ordinary).parse .python leadClass "lead.py" = .ok units ∧
      .entity e ∈ units ∧ e.Named ∧ ∃ f, DeclaredBare .ordinary leadClass "lead.py" e f := by
  have hdefects : (((Registry.ofGrammar .ordinary).parse .python leadClass "lead.py").toOption.getD []).map
      (fun u => u.entity?.map Entity.defect?) = [some (some (.untargetedReference "owner"))] := by
    decide +kernel
  cases hparse : (Registry.ofGrammar .ordinary).parse .python leadClass "lead.py" with
  | error fault => simp [hparse, Except.toOption] at hdefects
  | ok units =>
    simp only [hparse, Except.toOption, Option.getD_some, List.map_eq_singleton_iff,
      Option.map_eq_some_iff] at hdefects
    obtain ⟨u, rfl, e, hu, hdefect⟩ := hdefects
    have he : .entity e ∈ [u] := by
      cases u <;> cases hu
      exact List.mem_singleton_self _
    obtain ⟨hnamed, hvalid⟩ := parse_valid .ordinary _ _ _ _ hparse e he
    refine ⟨[u], e, rfl, he, hnamed, ?_⟩
    have hbare := mt hvalid.2 (by simp [hdefect])
    exact (not_not.1 hbare).2

/-- A name for keys, a type of constants without values and a class without constants. Each of them
alone gives a field that the check of its entity refuses. -/
theorem bare_fields :
    (["class A:\n    b: ForeignKey\n", "class A:\n    b = Column(Enum(Status))\n",
        "class S(Enum):\n    pass\nclass A:\n    b: S\n"].map fun source =>
      (((Registry.ofGrammar .ordinary).parse .python source "a.py").toOption.getD []).map
        fun u => u.entity?.map Entity.defect?) =
      [[some (some (.untargetedReference "b"))], [some (some (.valuelessEnumeration "b"))],
        [some (some (.valuelessEnumeration "b"))]] := by
  decide +kernel

end Concord.Source
