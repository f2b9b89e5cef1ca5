/-
Which patterns a specification shows beyond its tags. The tags are told from the entity,
where a type may still be a text and a target stands as the source spells it; the
specification has its types resolved and its targets under the names of entities. Methods
and names only get fewer on the way, so a pattern that the specification shows and its tags
lack is there by a field that became evidence when it was resolved (`Late`).
-/
import Concord.Proofs.Mapping.WellFormed
import Concord.Proofs.Pattern.Detection

namespace Concord.Mapping

open Pattern Spec

/-! ## What a field becomes -/

/-- A type that is known stays as it is, and is no more nullable than before. -/
theorem resolveField_of_known {wrappers : Typing.Wrappers} {catalog : Catalog} {owner : String}
    {f : Source.Field} {b : BaseType} {r : Resolved} (hf : f.type = .known b)
    (h : resolveField wrappers catalog owner f = .ok r) : r.type = b ∧ r.nullable = false := by
  unfold resolveField at h
  rw [hf] at h
  split at h
  · rename_i hraw
    cases hraw
  · rename_i hreference
    cases hreference
    dsimp only at h
    split at h
    · cases h
      exact ⟨rfl, rfl⟩
    · cases h
  · rename_i hknown
    cases hknown
    cases h
    exact ⟨rfl, rfl⟩

theorem isNullable_fieldOf (f : Source.Field) (r : Resolved) :
    (fieldOf f r).type.isNullable = !(f.required && !r.nullable) := by
  cases hrequired : f.required <;> cases hnullable : r.nullable <;>
    simp [fieldOf, Field.ofType, hrequired, hnullable, FieldType.isNullable, FieldType.orNull]

variable {catalog : Catalog} {e : Source.Entity}

theorem Becomes.name_eq {f : Source.Field} {g : Field} (h : Becomes catalog e f g) :
    g.name = f.name := by
  obtain ⟨r, -, rfl⟩ := h
  rfl

/-- A field whose type was known has the same type, nullable exactly when it was not required. -/
theorem Becomes.of_known {f : Source.Field} {g : Field} {b : BaseType} (h : Becomes catalog e f g)
    (hf : f.type = .known b) : g.type.root = b ∧ g.type.isNullable = !f.required := by
  obtain ⟨r, hr, rfl⟩ := h
  obtain ⟨htype, hnullable⟩ := resolveField_of_known hf hr
  exact ⟨(root_fieldOf f r).trans htype, by simp [isNullable_fieldOf, hnullable]⟩

theorem specify_tags {tags : Tags} {s : Specification} (h : specify catalog tags e = .ok s) :
    s.entity = e.name ∧ s.tags = tags := by
  unfold specify at h
  split at h
  · cases h
  simp only [bind, Except.bind, pure, Except.pure] at h
  split at h
  · cases h
  split at h
  · rename_i made hmade
    cases h
    refine ⟨?_, rfl⟩
    unfold Specification.make at hmade
    split at hmade
    · cases hmade
    · cases hmade
      rfl
  · cases h

/-! ## Late evidence -/

/-- A field that is evidence of a pattern in the specification and was none in the entity: its type was
a text, or it points at its own entity and was not spelled so. -/
inductive Late (owner : String) (f : Source.Field) (g : Field) : Tag → Prop
  | auditTriad {raw : String} (htype : f.type = .unresolved raw)
      (htemporal : g.type.root.isTemporal = true)
      (hname : normalName f.name ∈ createdNames ++ updatedNames) : Late owner f g .auditTriad
  | softRemoval {raw : String} (htype : f.type = .unresolved raw)
      (htemporal : g.type.root.isTemporal = true) (hnullable : g.type.isNullable = true)
      (hname : holds (normalName f.name) "deleted" = true ∨ holds (normalName f.name) "removed" = true) :
      Late owner f g .softRemoval
  | versioned {raw : String} (htype : f.type = .unresolved raw) (hinteger : g.type.root = .integer)
      (hname : normalName f.name ∈ versionNames) : Late owner f g .versioned
  | hierarchical {target : String} (htarget : g.reference = some target)
      (hself : normalName target = normalName owner)
      (hspelled : f.reference.map normalName ≠ some (normalName owner)) :
      Late owner f g .hierarchical

variable {s : Specification}

/-- Evidence that a field has a type of some sort is late if the type was a text. -/
theorem type_or_unresolved {f : Source.Field} {g : Field} (h : Becomes catalog e f g)
    {p : BaseType → Bool} (hg : p g.type.root = true) :
    (∃ b, f.type = .known b ∧ p b = true ∧ g.type.isNullable = !f.required) ∨
      ∃ raw, f.type = .unresolved raw := by
  cases htype : f.type with
  | known b =>
    obtain ⟨hroot, hnullable⟩ := h.of_known htype
    exact .inl ⟨b, rfl, hroot ▸ hg, hnullable⟩
  | unresolved raw => exact .inr ⟨raw, rfl⟩

/-- A late field of a pattern, among the fields of an entity and of its specification. -/
def HasLate (catalog : Catalog) (e : Source.Entity) (s : Specification) (t : Tag) : Prop :=
  ∃ f ∈ e.fields, ∃ g ∈ s.fields, Becomes catalog e f g ∧ Late e.name f g t

theorem temporal_or_late (hfields : List.Forall₂ (Becomes catalog e) e.fields s.fields)
    {known : List String} (hknown : known ⊆ createdNames ++ updatedNames)
    (h : anyOf (Evidence.ofSpec s).temporal known = true) :
    anyOf (Evidence.ofEntity e).temporal known = true ∨ HasLate catalog e s .auditTriad := by
  simp only [anyOf, Evidence.ofSpec, Evidence.ofEntity, List.any_map, List.any_filter, List.any_eq_true,
    Bool.and_eq_true, Function.comp_apply, List.contains_iff_mem] at h ⊢
  obtain ⟨g, hg, htemporal, hname⟩ := h
  obtain ⟨f, hf, hfg⟩ := exists_of_forall₂ hfields hg
  rw [hfg.name_eq] at hname
  rcases type_or_unresolved hfg htemporal with ⟨b, hb, htime, -⟩ | ⟨raw, hraw⟩
  · exact .inl ⟨f, hf, by simpa [hb, Source.TypeTag.isTemporal] using htime, hname⟩
  · exact .inr ⟨f, hf, g, hg, hfg, .auditTriad hraw htemporal (hknown hname)⟩

theorem optionalTemporal_or_late (hfields : List.Forall₂ (Becomes catalog e) e.fields s.fields)
    (h : (Evidence.ofSpec s).shows .softRemoval = true) :
    (Evidence.ofEntity e).shows .softRemoval = true ∨ HasLate catalog e s .softRemoval := by
  simp only [Evidence.shows, Evidence.ofSpec, Evidence.ofEntity, List.any_map, List.any_filter,
    List.any_eq_true, Bool.and_eq_true, Bool.or_eq_true, Function.comp_apply] at h ⊢
  obtain ⟨g, hg, ⟨hnullable, htemporal⟩, hname⟩ := h
  obtain ⟨f, hf, hfg⟩ := exists_of_forall₂ hfields hg
  rw [hfg.name_eq] at hname
  rcases type_or_unresolved hfg htemporal with ⟨b, hb, htime, hsame⟩ | ⟨raw, hraw⟩
  · exact .inl ⟨f, hf, ⟨hsame ▸ hnullable, by simpa [hb, Source.TypeTag.isTemporal] using htime⟩, hname⟩
  · exact .inr ⟨f, hf, g, hg, hfg, .softRemoval hraw htemporal hnullable hname⟩

theorem integers_or_late (hfields : List.Forall₂ (Becomes catalog e) e.fields s.fields)
    (h : (Evidence.ofSpec s).shows .versioned = true) :
    (Evidence.ofEntity e).shows .versioned = true ∨ HasLate catalog e s .versioned := by
  simp only [Evidence.shows, anyOf, Evidence.ofSpec, Evidence.ofEntity, List.any_map, List.any_filter,
    List.any_eq_true, Bool.and_eq_true, Function.comp_apply, List.contains_iff_mem] at h ⊢
  obtain ⟨g, hg, hinteger, hname⟩ := h
  obtain ⟨f, hf, hfg⟩ := exists_of_forall₂ hfields hg
  rw [hfg.name_eq] at hname
  rcases type_or_unresolved (p := (· == .integer)) hfg hinteger with ⟨b, hb, hwhole, -⟩ | ⟨raw, hraw⟩
  · exact .inl ⟨f, hf, by simpa [hb] using hwhole, hname⟩
  · exact .inr ⟨f, hf, g, hg, hfg, .versioned hraw (by simpa using hinteger) hname⟩

theorem targets_or_late (hfields : List.Forall₂ (Becomes catalog e) e.fields s.fields)
    (h : normalName e.name ∈ (Evidence.ofSpec s).targets) :
    normalName e.name ∈ (Evidence.ofEntity e).targets ∨ HasLate catalog e s .hierarchical := by
  simp only [Evidence.ofSpec, Evidence.ofEntity, List.mem_filterMap] at h ⊢
  obtain ⟨g, hg, htarget⟩ := h
  obtain ⟨target, hreference, hself⟩ := Option.map_eq_some_iff.1 htarget
  obtain ⟨f, hf, hfg⟩ := exists_of_forall₂ hfields hg
  by_cases hspelled : f.reference.map normalName = some (normalName e.name)
  · exact .inl ⟨f, hf, hspelled⟩
  · exact .inr ⟨f, hf, g, hg, hfg, .hierarchical hreference hself hspelled⟩

/-! ## Names and methods -/

/-- A specification has the names of the fields of its entity. -/
theorem fields_ofSpec {tags : Tags} (h : specify catalog tags e = .ok s) :
    (Evidence.ofSpec s).fields = (Evidence.ofEntity e).fields := by
  have hnames := congrArg (List.map normalName) (specify_wellFormed catalog tags e s h).names
  simpa [Evidence.ofSpec, Evidence.ofEntity, Function.comp_def] using hnames

/-- Its actions are methods of the entity. -/
theorem methods_ofSpec_subset {tags : Tags} (h : specify catalog tags e = .ok s) :
    (Evidence.ofSpec s).methods ⊆ (Evidence.ofEntity e).methods := by
  have hactions := (specify_wellFormed catalog tags e s h).actions
  intro name hname
  simp only [Evidence.ofSpec, Evidence.ofEntity, List.mem_map] at hname ⊢
  obtain ⟨a, ha, rfl⟩ := hname
  have hmem : a.name ∈ (e.methods.filter qualifies).map Source.Method.name := by
    rw [← List.mem_eraseDups, ← hactions]
    exact List.mem_map_of_mem ha
  obtain ⟨m, hm, hname⟩ := List.mem_map.1 hmem
  exact ⟨m, (List.mem_filter.1 hm).1, congrArg normalName hname⟩

/-! ## Tags -/

/-- What a specification shows, its entity shows too, or a field of it is late. -/
theorem shows_or_late {tags : Tags} (h : specify catalog tags e = .ok s) (t : Tag)
    (ht : (Evidence.ofSpec s).shows t = true) :
    (Evidence.ofEntity e).shows t = true ∨ HasLate catalog e s t := by
  have hfields := (specify_eq_ok h).1
  have hnames := fields_ofSpec h
  have hmethods := methods_ofSpec_subset h
  cases t with
  | auditTriad =>
    simp only [Evidence.shows, Bool.or_eq_true, Bool.and_eq_true] at ht ⊢
    -- no decorations are left, so the two times are there
    obtain ⟨hcreated, hupdated⟩ := ht.resolve_right (by simp [Evidence.ofSpec])
    rcases temporal_or_late hfields (List.subset_append_left _ _) hcreated with hcreated | hlate
    · rcases temporal_or_late hfields (List.subset_append_right _ _) hupdated with hupdated | hlate
      · exact .inl (.inl ⟨hcreated, hupdated⟩)
      · exact .inr hlate
    · exact .inr hlate
  | softRemoval => exact optionalTemporal_or_late hfields ht
  | statusLifecycle =>
    simp only [Evidence.shows, Bool.and_eq_true, hnames] at ht ⊢
    exact .inl ⟨ht.1, any_mono hmethods ht.2⟩
  | bulkAccess => exact .inl (bulkAccess_mono hmethods ht)
  | multiTenant =>
    simp only [Evidence.shows, hnames] at ht ⊢
    exact .inl ht
  | hierarchical =>
    have hsubject : (Evidence.ofSpec s).subject = normalName e.name :=
      congrArg normalName (specify_tags h).1
    simp only [Evidence.shows, Bool.or_eq_true, List.contains_iff_mem, hnames, hsubject] at ht ⊢
    rcases ht with hparent | htarget
    · exact .inl (.inl hparent)
    · exact (targets_or_late hfields htarget).imp_left .inr
  | versioned => exact integers_or_late hfields ht

/-- A late field shows its pattern; the two times of a triad must both be there. -/
theorem shows_of_late {tags : Tags} (h : specify catalog tags e = .ok s) {t : Tag}
    (ht : t ≠ .auditTriad) (hlate : HasLate catalog e s t) : (Evidence.ofSpec s).shows t = true := by
  obtain ⟨f, -, g, hg, hfg, hlate⟩ := hlate
  have hname := hfg.name_eq
  cases hlate with
  | auditTriad => exact absurd rfl ht
  | softRemoval _ htemporal hnullable hholds =>
    simp only [Evidence.shows, Evidence.ofSpec, List.any_map, List.any_filter, List.any_eq_true,
      Bool.and_eq_true, Bool.or_eq_true, Function.comp_apply]
    exact ⟨g, hg, ⟨hnullable, htemporal⟩, hname ▸ hholds⟩
  | versioned _ hinteger hversion =>
    simp only [Evidence.shows, anyOf, Evidence.ofSpec, List.any_map, List.any_filter, List.any_eq_true,
      Bool.and_eq_true, Function.comp_apply, List.contains_iff_mem]
    exact ⟨g, hg, by simpa using hinteger, hname ▸ hversion⟩
  | hierarchical htarget hself =>
    have hsubject : (Evidence.ofSpec s).subject = normalName e.name :=
      congrArg normalName (specify_tags h).1
    simp only [Evidence.shows, Bool.or_eq_true, List.contains_iff_mem, hsubject]
    exact .inr (List.mem_filterMap.2 ⟨g, hg, by rw [htarget, Option.map_some, hself]⟩)

/-- **The tags of a mapped entity cover its specification, but for fields that become evidence when they are
resolved.** A pattern that the specification shows is among its tags, or a late field of that pattern is
there; there are none of a status, of bulk access and of tenants. A late field does show its pattern, but for
the two times of a triad, which must both be there. So a specification without late fields shows only what
it is tagged with. -/
theorem detected_covers (catalog : Catalog) (e : Source.Entity) (s : Specification)
    (h : specifyDetected catalog e = .ok s) (t : Tag) :
    ((detect (.ofSpec s)).has t = true → s.tags.has t = true ∨ HasLate catalog e s t) ∧
      (HasLate catalog e s t → t ≠ .auditTriad → (detect (.ofSpec s)).has t = true) := by
  have htags : s.tags = detect (.ofEntity e) := (specify_tags h).2
  rw [htags]
  exact ⟨shows_or_late h t, fun hlate ht => shows_of_late h ht hlate⟩

/-- A tree by the type of its nodes, as a class writes it before it is complete. -/
def node : Source.Entity where
  name := "Node"
  fields := [
    .plain "name" (.known .text),
    { Source.Field.plain "parent" (.unresolved "\"Node\"") with required := false }]
  format := .python

/-- A tree by the table that its keys name. -/
def holding : Source.Entity where
  name := "Company"
  fields := [.pointing "owner" "companies"]
  format := .python

/-- Times and a number under the names that a library gives these types. -/
def draft : Source.Entity where
  name := "Draft"
  fields := [
    .plain "version" (.unresolved "Integer"),
    .plain "deletedAt" (.unresolved "Optional<Timestamp>"),
    .plain "createdAt" (.unresolved "Timestamp"),
    .plain "updatedAt" (.unresolved "Date")]
  format := .java

/-- The patterns that the specification of an entity shows and is not tagged with. -/
def untagged? (catalog : Catalog) (e : Source.Entity) : Option (List Tag) :=
  (specifyDetected catalog e).toOption.map fun s =>
    (detect (.ofSpec s)).toList.filter fun t => !s.tags.has t

theorem detected_covers_node : ∃ s, specifyDetected (.ofNames ["Node"]) node = .ok s ∧
    (detect (.ofSpec s)).has .hierarchical = true ∧
    HasLate (.ofNames ["Node"]) node s .hierarchical := by
  have hshown : (specifyDetected (.ofNames ["Node"]) node).toOption.map (fun s =>
      ((detect (.ofSpec s)).has .hierarchical, s.tags.has .hierarchical)) = some (true, false) := by
    decide +kernel
  cases hs : specifyDetected (.ofNames ["Node"]) node with
  | error failure => simp [hs, Except.toOption] at hshown
  | ok s =>
    simp only [hs, Except.toOption, Option.map_some, Option.some.injEq, Prod.mk.injEq] at hshown
    have hcovers := (detected_covers _ _ s hs .hierarchical).1 hshown.1
    exact ⟨s, rfl, hshown.1, hcovers.resolve_left (by simp [hshown.2])⟩

/-- Trees by a type and by a table are not tagged as such, and neither are times and numbers under other
names of their types. -/
theorem patterns_untagged :
    untagged? (.ofNames ["Node"]) node = some [.hierarchical] ∧
      untagged? (.ofNames ["Company"]) holding = some [.hierarchical] ∧
      untagged? .empty draft = some [.auditTriad, .softRemoval, .versioned] := by
  decide +kernel

end Concord.Mapping
