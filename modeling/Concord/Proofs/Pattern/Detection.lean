/-
How detection depends on what an entity declares. Every test of a pattern asks for names that
are there and never for names that are missing, so that more evidence shows no fewer
patterns (`Evidence.Within.shows`). The evidence in turn depends only on which fields, methods,
decorations and supertypes there are, not on their order or on how often they stand there
(`detect_within`).
-/
import Concord.Pattern.Detect
import Mathlib.Data.List.Basic

namespace Concord.Pattern

open Source

/-! ## More evidence -/

/-- What some name shows, some name shows among more of them. -/
theorem any_mono {names more : List String} (h : names ⊆ more) {p : String → Bool}
    (hany : names.any p = true) : more.any p = true := by
  obtain ⟨name, hname, hp⟩ := List.any_eq_true.1 hany
  exact List.any_eq_true.2 ⟨name, h hname, hp⟩

theorem bulkAccess_mono {a b : Evidence} (h : a.methods ⊆ b.methods)
    (ha : a.shows .bulkAccess = true) : b.shows .bulkAccess = true := by
  simp only [Evidence.shows, decide_eq_true_eq] at ha ⊢
  refine Nat.le_trans ha (List.Sublist.length_le ?_)
  exact List.monotone_filter_right accessVerbs fun _ => any_mono h

/-- Evidence that is also there in other evidence about a subject of the same name. -/
structure Evidence.Within (a b : Evidence) : Prop where
  subject : a.subject = b.subject
  fields : a.fields ⊆ b.fields
  methods : a.methods ⊆ b.methods
  decorations : a.decorations ⊆ b.decorations
  temporal : a.temporal ⊆ b.temporal
  optionalTemporal : a.optionalTemporal ⊆ b.optionalTemporal
  integers : a.integers ⊆ b.integers
  targets : a.targets ⊆ b.targets

/-- More evidence shows every pattern that less of it shows. -/
theorem Evidence.Within.shows {a b : Evidence} (h : a.Within b) {t : Tag} (ht : a.shows t = true) :
    b.shows t = true := by
  cases t with
  | auditTriad =>
    simp only [Evidence.shows, Bool.or_eq_true, Bool.and_eq_true] at ht ⊢
    rcases ht with ⟨hcreated, hupdated⟩ | hmixin
    · exact .inl ⟨any_mono h.temporal hcreated, any_mono h.temporal hupdated⟩
    · exact .inr (any_mono h.decorations hmixin)
  | softRemoval => exact any_mono h.optionalTemporal ht
  | statusLifecycle =>
    simp only [Evidence.shows, Bool.and_eq_true] at ht ⊢
    exact ⟨any_mono h.fields ht.1, any_mono h.methods ht.2⟩
  | bulkAccess => exact bulkAccess_mono h.methods ht
  | multiTenant => exact any_mono h.fields ht
  | hierarchical =>
    simp only [Evidence.shows, Bool.or_eq_true, List.contains_iff_mem] at ht ⊢
    rcases ht with hparent | htarget
    · exact .inl (h.fields hparent)
    · exact .inr (h.subject ▸ h.targets htarget)
  | versioned => exact any_mono h.integers ht

/-! ## More declarations -/

/-- Two fields that are the same to detection. -/
structure Alike (f g : Field) : Prop where
  name : f.name = g.name
  type : f.type = g.type
  required : f.required = g.required
  reference : f.reference = g.reference

instance (f g : Field) : Decidable (Alike f g) :=
  decidable_of_iff
    (f.name = g.name ∧ f.type = g.type ∧ f.required = g.required ∧ f.reference = g.reference)
    ⟨fun ⟨hname, htype, hrequired, hreference⟩ => ⟨hname, htype, hrequired, hreference⟩,
      fun h => ⟨h.name, h.type, h.required, h.reference⟩⟩

/-- All that an entity declares, another one of the same name declares too. -/
structure Contained (e e' : Entity) : Prop where
  name : e.name = e'.name
  fields : ∀ f ∈ e.fields, ∃ g ∈ e'.fields, Alike f g
  methods : ∀ m ∈ e.methods, ∃ n ∈ e'.methods, m.name = n.name
  /-- A mixin may be a decoration of one and a supertype of the other. -/
  mixins : ∀ s ∈ e.decorations ++ e.supertypes, s ∈ e'.decorations ++ e'.supertypes

/-- Two entities of the same name with the same declarations, in any order and any number of
times. -/
structure Rearranged (e e' : Entity) : Prop where
  name : e.name = e'.name
  fields : e.fields ⊆ e'.fields ∧ e'.fields ⊆ e.fields
  methods : e.methods ⊆ e'.methods ∧ e'.methods ⊆ e.methods
  decorations : e.decorations ⊆ e'.decorations ∧ e'.decorations ⊆ e.decorations
  supertypes : e.supertypes ⊆ e'.supertypes ∧ e'.supertypes ⊆ e.supertypes

namespace Rearranged

variable {e e' : Entity}

theorem symm (h : Rearranged e e') : Rearranged e' e :=
  ⟨h.name.symm, h.fields.symm, h.methods.symm, h.decorations.symm, h.supertypes.symm⟩

theorem contained (h : Rearranged e e') : Contained e e' where
  name := h.name
  fields f hf := ⟨f, h.fields.1 hf, ⟨rfl, rfl, rfl, rfl⟩⟩
  methods m hm := ⟨m, h.methods.1 hm, rfl⟩
  mixins s hs := by
    rw [List.mem_append] at hs ⊢
    exact hs.imp (h.decorations.1 ·) (h.supertypes.1 ·)

end Rearranged

/-- Of more fields, those of a sort that alike fields share have more names. -/
theorem names_mono {fs gs : List Field} (h : ∀ f ∈ fs, ∃ g ∈ gs, Alike f g) {p : Field → Bool}
    (hp : ∀ f g, Alike f g → p f = p g) :
    (fs.filter p).map (fun f => normalName f.name) ⊆
      (gs.filter p).map fun g => normalName g.name := by
  intro name hname
  obtain ⟨f, hf, rfl⟩ := List.mem_map.1 hname
  obtain ⟨hmem, hsort⟩ := List.mem_filter.1 hf
  obtain ⟨g, hg, halike⟩ := h f hmem
  rw [halike.name]
  exact List.mem_map_of_mem (List.mem_filter.2 ⟨hg, hp f g halike ▸ hsort⟩)

/-- More declarations are more evidence. -/
theorem Contained.within {e e' : Entity} (h : Contained e e') :
    (Evidence.ofEntity e).Within (.ofEntity e') where
  subject := congrArg normalName h.name
  fields := by
    intro name hname
    obtain ⟨f, hf, rfl⟩ := List.mem_map.1 hname
    obtain ⟨g, hg, halike⟩ := h.fields f hf
    exact List.mem_map.2 ⟨g, hg, by rw [halike.name]⟩
  methods := by
    intro name hname
    obtain ⟨m, hm, rfl⟩ := List.mem_map.1 hname
    obtain ⟨n, hn, hsame⟩ := h.methods m hm
    exact List.mem_map.2 ⟨n, hn, by rw [hsame]⟩
  decorations := by
    intro word hword
    obtain ⟨s, hs, hmem⟩ := List.mem_flatMap.1 hword
    exact List.mem_flatMap.2 ⟨s, h.mixins s hs, hmem⟩
  temporal := names_mono h.fields fun f g halike => by rw [halike.type]
  optionalTemporal := names_mono h.fields fun f g halike => by rw [halike.type, halike.required]
  integers := names_mono h.fields fun f g halike => by rw [halike.type]
  targets := by
    intro target htarget
    obtain ⟨f, hf, hpoints⟩ := List.mem_filterMap.1 htarget
    obtain ⟨g, hg, halike⟩ := h.fields f hf
    exact List.mem_filterMap.2 ⟨g, hg, halike.reference ▸ hpoints⟩

/-- **Detection is monotone and blind to order.** An entity that declares all that another one of its
name does shows all of its patterns, and one that declares the same, in another order or
repeatedly, shows the same ones. -/
theorem detect_within (e e' : Entity) :
    (Contained e e' → ∀ t, (detect (.ofEntity e)).has t = true → (detect (.ofEntity e')).has t = true) ∧
      (Rearranged e e' → detect (.ofEntity e) = detect (.ofEntity e')) := by
  refine ⟨fun h t => h.within.shows, fun h => ?_⟩
  ext t
  exact Bool.eq_iff_iff.2 ⟨h.contained.within.shows, h.symm.contained.within.shows⟩

/-- An order with its times, and with a status that methods move on. -/
def order : Entity where
  name := "Order"
  fields := [
    .plain "updated_at" (.known .timestamp),
    .plain "status" (.known .text),
    .plain "created_at" (.known .timestamp)]
  methods := [{ name := "set_status" }, { name := "find" }]
  supertypes := ["Base"]
  format := .python

/-- The same order, declared in another order and in part twice. -/
def reorder : Entity :=
  { order with
    fields := order.fields.reverse ++ order.fields
    methods := [{ name := "find" }, { name := "set_status" }, { name := "find" }]
    supertypes := ["Base", "Base"] }

/-- An order with a tenant, more to say of its status, and its supertype among the decorations. -/
def tenantOrder : Entity :=
  { order with
    fields := { Field.plain "status" (.known .text) with values := ["sent"] } ::
      .plain "tenant" (.known .identifier) :: order.fields
    methods := [{ name := "set_status", body := ["pass"] }, { name := "find" }]
    decorations := ["Base"]
    supertypes := [] }

/-- Both halves are met by entities that differ. -/
theorem detect_within_order :
    (detect (.ofEntity order)).toList = [.auditTriad, .statusLifecycle] ∧
      detect (.ofEntity order) = detect (.ofEntity reorder) ∧
      ∀ t, (detect (.ofEntity order)).has t = true → (detect (.ofEntity tenantOrder)).has t = true := by
  refine ⟨by decide +kernel, (detect_within order reorder).2 ?_, (detect_within order tenantOrder).1 ?_⟩
  · exact ⟨rfl, ⟨by decide, by decide⟩, ⟨by decide, by decide⟩, ⟨by decide, by decide⟩,
      ⟨by decide, by decide⟩⟩
  · exact ⟨rfl, by decide, by decide, by decide⟩

end Concord.Pattern
