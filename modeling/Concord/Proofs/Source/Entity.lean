/-
What the check of an entity asks for. A check of members one after the other, which
remembers their names, finds nothing exactly when each member passes on its own and no two
share a name (`Schema.check_eq_none_iff`); so an entity is acceptable exactly when its names
are in order and its fields are complete (`Entity.defect?_eq_none_iff`). An entity that grows
by a field of a new name or by methods keeps its names in order.
-/
import Concord.Source.Entity
import Mathlib.Data.List.Nodup

namespace Concord

/-! ## Runs that may fail -/

section Runs

variable {α β : Type}

theorem exists_of_mapM_eq_some {f : α → Option β} {as : List α} {bs : List β}
    (h : as.mapM f = some bs) {b : β} (hb : b ∈ bs) : ∃ a ∈ as, f a = some b := by
  induction as generalizing bs with
  | nil =>
    cases h
    cases hb
  | cons a as ih =>
    simp only [List.mapM_cons, Option.bind_eq_bind, Option.bind_eq_some_iff] at h
    obtain ⟨b', hb', rest, hrest, h⟩ := h
    cases h
    rcases List.mem_cons.1 hb with rfl | hb
    · exact ⟨a, List.mem_cons_self, hb'⟩
    · obtain ⟨a', ha', hf⟩ := ih hrest hb
      exact ⟨a', List.mem_cons_of_mem a ha', hf⟩

theorem forall₂_of_mapM_ok {ε : Type} {f : α → Except ε β} {as : List α} {bs : List β}
    (h : as.mapM f = .ok bs) : List.Forall₂ (fun a b => f a = .ok b) as bs := by
  induction as generalizing bs with
  | nil =>
    cases h
    exact .nil
  | cons a as ih =>
    rw [List.mapM_cons] at h
    cases hb : f a with
    | error e => simp [hb, bind, Except.bind] at h
    | ok b =>
      cases hbs : as.mapM f with
      | error e => simp [hb, hbs, bind, Except.bind] at h
      | ok rest =>
        simp only [hb, hbs, bind, Except.bind, pure, Except.pure, Except.ok.injEq] at h
        exact h ▸ .cons hb (ih hbs)

theorem exists_of_forall₂ {R : α → β → Prop} {as : List α} {bs : List β} (h : List.Forall₂ R as bs)
    {b : β} (hb : b ∈ bs) : ∃ a ∈ as, R a b := by
  induction h with
  | nil => cases hb
  | cons hab hrest ih =>
    rcases List.mem_cons.1 hb with rfl | hb
    · exact ⟨_, List.mem_cons_self, hab⟩
    · obtain ⟨a, ha, hrelated⟩ := ih hb
      exact ⟨a, List.mem_cons_of_mem _ ha, hrelated⟩

/-- What every step keeps, a run keeps. -/
theorem foldlM_keeps {P : β → Prop} {step : β → α → Option β} {as : List α}
    (hstep : ∀ a ∈ as, ∀ b b', P b → step b a = some b' → P b') {b b' : β} (h : P b)
    (hrun : as.foldlM step b = some b') : P b' := by
  induction as generalizing b with
  | nil =>
    cases hrun
    exact h
  | cons a as ih =>
    rw [List.foldlM_cons, Option.bind_eq_bind, Option.bind_eq_some_iff] at hrun
    obtain ⟨mid, hmid, hrun⟩ := hrun
    rw [List.forall_mem_cons] at hstep
    exact ih hstep.2 (hstep.1 b mid h hmid) hrun

end Runs

/-! ## Checks of members -/

/-- A check of members one after the other, each against the names before it. -/
theorem Schema.check_eq_none_iff {α : Type} {name : α → String} {Passes : α → Prop}
    {one : List String → α → Option Defect} {all : List String → List α → Option Defect}
    (hnil : ∀ seen, all seen [] = none)
    (hcons : ∀ seen a rest, all seen (a :: rest) = (one seen a).or (all (name a :: seen) rest))
    (hone : ∀ seen a, one seen a = none ↔ Passes a ∧ name a ∉ seen) (seen : List String)
    (as : List α) :
    all seen as = none ↔ (∀ a ∈ as, Passes a ∧ name a ∉ seen) ∧ (as.map name).Nodup := by
  induction as generalizing seen with
  | nil => simp [hnil]
  | cons a rest ih =>
    simp only [hcons, Option.or_eq_none_iff, hone, ih, List.mem_cons, not_or, List.map_cons,
      List.nodup_cons, List.mem_map, not_exists, not_and, forall_eq_or_imp]
    constructor
    · rintro ⟨ha, hrest, hnodup⟩
      exact ⟨⟨ha, fun b hb => ⟨(hrest b hb).1, (hrest b hb).2.2⟩⟩, fun b hb => (hrest b hb).2.1,
        hnodup⟩
    · rintro ⟨⟨ha, hrest⟩, hfresh, hnodup⟩
      exact ⟨ha, fun b hb => ⟨(hrest b hb).1, hfresh b hb, (hrest b hb).2⟩, hnodup⟩

namespace Source

open Text

/-! ## Entities -/

/-- A field that has all that its type asks for. -/
@[mk_iff]
structure Field.Complete (f : Field) : Prop where
  targeted : f.type = .known .reference → f.reference ≠ none
  valued : f.type = .known .enumerated → f.values ≠ []

instance (f : Field) : Decidable f.Complete := decidable_of_iff _ (Field.complete_iff f).symm

namespace Entity

theorem fieldDefect?_eq_none_iff (seen : List String) (f : Field) :
    fieldDefect? seen f = none ↔ (allBlank f.name.toList = false ∧ f.Complete) ∧ f.name ∉ seen := by
  unfold fieldDefect?
  constructor
  · intro h
    split at h
    · cases h
    split at h
    · cases h
    split at h
    · cases h
    split at h
    · cases h
    rename_i hnamed hnew htarget hvalues
    exact ⟨⟨by simpa using hnamed, by simpa using htarget, by simpa using hvalues⟩, by simpa using hnew⟩
  · rintro ⟨⟨hnamed, htarget, hvalues⟩, hnew⟩
    have hreference : ¬(f.type = .known .reference ∧ f.reference = none) := fun h => htarget h.1 h.2
    have henumerated : ¬(f.type = .known .enumerated ∧ f.values = []) := fun h => hvalues h.1 h.2
    simp [hnamed, hnew, hreference, henumerated]

theorem fieldsDefect?_nil_iff (fs : List Field) : fieldsDefect? [] fs = none ↔
    (∀ f ∈ fs, allBlank f.name.toList = false ∧ f.Complete) ∧ (fs.map Field.name).Nodup := by
  rw [Schema.check_eq_none_iff (fun _ => rfl) (fun _ _ _ => rfl) fieldDefect?_eq_none_iff]
  simp

/-- Every name of an entity is one, and no two fields share theirs. -/
structure Named (e : Entity) : Prop where
  name : allBlank e.name.toList = false
  fields : ∀ f ∈ e.fields, allBlank f.name.toList = false
  distinct : (e.fields.map Field.name).Nodup
  methods : ∀ m ∈ e.methods, allBlank m.name.toList = false

/-- An entity is acceptable exactly when its names are in order and its fields are complete. -/
theorem defect?_eq_none_iff (e : Entity) :
    e.defect? = none ↔ e.Named ∧ ∀ f ∈ e.fields, f.Complete := by
  unfold defect?
  split
  · rename_i hblank
    simp only [reduceCtorEq, false_iff, not_and]
    intro hnamed
    rw [hnamed.name] at hblank
    cases hblank
  · rename_i hname
    rw [Option.or_eq_none_iff, fieldsDefect?_nil_iff]
    constructor
    · rintro ⟨⟨hfields, hdistinct⟩, hmethods⟩
      refine ⟨⟨by simpa using hname, fun f hf => (hfields f hf).1, hdistinct, ?_⟩,
        fun f hf => (hfields f hf).2⟩
      simpa using hmethods
    · rintro ⟨hnamed, hcomplete⟩
      refine ⟨⟨fun f hf => ⟨hnamed.fields f hf, hcomplete f hf⟩, hnamed.distinct⟩, ?_⟩
      simpa using hnamed.methods

/-- Names stay different when a field of a new name is added. -/
theorem nodup_names_append {fs : List Field} {f : Field} (h : (fs.map Field.name).Nodup)
    (hnew : fs.any (·.name == f.name) = false) : ((fs ++ [f]).map Field.name).Nodup := by
  rw [List.map_append, List.nodup_append]
  refine ⟨h, List.nodup_singleton _, ?_⟩
  rintro a ha b hb rfl
  obtain ⟨g, hg, rfl⟩ := List.mem_map.1 ha
  rw [List.map_singleton, List.mem_singleton] at hb
  exact List.any_eq_false.1 hnew g hg (beq_iff_eq.2 hb)

namespace Named

variable {e : Entity}

theorem withField (h : e.Named) {f : Field} (hf : allBlank f.name.toList = false)
    (hnew : e.fields.any (·.name == f.name) = false) :
    Named { e with fields := e.fields ++ [f] } where
  name := h.name
  fields g hg := by
    rcases List.mem_append.1 hg with hg | hg
    · exact h.fields g hg
    · rwa [List.mem_singleton.1 hg]
  distinct := nodup_names_append h.distinct hnew
  methods := h.methods

theorem withMethods (h : e.Named) {ms : List Method}
    (hms : ∀ m ∈ ms, allBlank m.name.toList = false) :
    Named { e with methods := e.methods ++ ms } where
  name := h.name
  fields := h.fields
  distinct := h.distinct
  methods m hm := (List.mem_append.1 hm).elim (h.methods m) (hms m)

end Named

end Entity

end Source

end Concord
