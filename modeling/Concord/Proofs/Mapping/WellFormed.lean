/-
What every specification made of an entity satisfies. A type means something only together
with what it points at (`resolveField_reference`), and whatever slips through that is stopped
where the specification is made; each action is that of the first method of its name; and a
step changes only fields that the entity declares, however deep it stands
(`mem_fields_of_mutate`).
-/
import Concord.Mapping.Entity
import Concord.Proofs.Spec.Restoration

namespace Concord

/-! ## What names are resolved to -/

theorem Catalog.contains_of_resolve? {catalog : Catalog} {name found : String}
    (h : catalog.resolve? name = some found) : catalog.contains found = true := by
  rw [resolve?.eq_def] at h
  dsimp only at h
  split at h
  · rename_i hexact
    cases h
    exact hexact
  · exact List.contains_iff_mem.2 (List.mem_of_find?_eq_some h)

/-- A target that an entity may point at: itself, or an entity that is known. -/
def Catalog.Reaches (catalog : Catalog) (owner target : String) : Prop :=
  target = owner ∨ catalog.contains target = true

theorem Catalog.reaches_of_resolveFor? {catalog : Catalog} {name owner found : String}
    (h : catalog.resolveFor? name owner = some found) : catalog.Reaches owner found := by
  unfold resolveFor? at h
  split at h
  · cases h
    exact .inl rfl
  · exact .inr (contains_of_resolve? h)

namespace Mapping

open Text Spec Statement

/-! ## Fields -/

theorem resolveType?_reference {wrappers : Typing.Wrappers} {raw owner target : String}
    {catalog : Catalog} {r : Resolved} (h : resolveType? wrappers raw catalog owner = some r)
    (htarget : r.reference = some target) : r.type = .reference ∧ catalog.Reaches owner target := by
  unfold resolveType? resolvePeeled? at h
  split at h
  · cases h
    cases htarget
  · split at h
    · rename_i entity hentity
      cases h
      cases htarget
      exact ⟨rfl, Catalog.reaches_of_resolveFor? hentity⟩
    · obtain ⟨b, -, rfl⟩ := Option.map_eq_some_iff.1 h
      cases htarget

/-- Only a reference is given a target, and one within reach. -/
theorem resolveField_reference {wrappers : Typing.Wrappers} {catalog : Catalog}
    {owner target : String} {f : Source.Field} {r : Resolved}
    (h : resolveField wrappers catalog owner f = .ok r) (htarget : r.reference = some target) :
    r.type = .reference ∧ catalog.Reaches owner target := by
  unfold resolveField at h
  split at h
  · split at h
    · rename_i hresolved
      cases h
      exact resolveType?_reference hresolved htarget
    · cases h
  · dsimp only at h
    split at h
    · rename_i hentity
      cases h
      cases htarget
      exact ⟨rfl, Catalog.reaches_of_resolveFor? hentity⟩
    · cases h
  · cases h
    cases htarget

@[simp] theorem name_fieldOf (f : Source.Field) (r : Resolved) : (fieldOf f r).name = f.name := rfl

@[simp] theorem reference_fieldOf (f : Source.Field) (r : Resolved) :
    (fieldOf f r).reference = r.reference := rfl

@[simp] theorem root_fieldOf (f : Source.Field) (r : Resolved) :
    (fieldOf f r).type.root = r.type := by
  simp only [fieldOf, Field.ofType]
  split <;> rfl

theorem coherent_fieldOf (f : Source.Field) (r : Resolved) : (fieldOf f r).Coherent := by
  simp only [fieldOf, Field.ofType]
  split
  · exact ⟨by simp [FieldType.isNullable], Nat.zero_le 1⟩
  · exact ⟨by simp [FieldType.orNull, FieldType.isNullable], Nat.le_refl 1⟩

/-- The field of a specification that a field of an entity becomes. -/
def Becomes (catalog : Catalog) (e : Source.Entity) (f : Source.Field) (g : Field) : Prop :=
  ∃ r, resolveField (.ofFormat e.format) catalog e.name f = .ok r ∧ g = fieldOf f r

/-! ## Actions -/

theorem name_firstNamed_not_mem {seen : List String} {ms : List Source.Method} {m : Source.Method}
    (h : m ∈ firstNamed seen ms) : m.name ∉ seen := by
  induction ms generalizing seen with
  | nil => cases h
  | cons n ms ih =>
    rw [firstNamed] at h
    split at h
    · exact ih h
    · rename_i hnew
      rcases List.mem_cons.1 h with rfl | h
      · simpa using hnew
      · exact fun hseen => ih h (List.mem_cons_of_mem _ hseen)

theorem nodup_firstNamed (seen : List String) (ms : List Source.Method) :
    ((firstNamed seen ms).map Source.Method.name).Nodup := by
  induction ms generalizing seen with
  | nil => exact List.nodup_nil
  | cons m ms ih =>
    rw [firstNamed]
    split
    · exact ih seen
    · refine List.nodup_cons.2 ⟨fun hm => ?_, ih (m.name :: seen)⟩
      obtain ⟨n, hn, hname⟩ := List.mem_map.1 hm
      exact name_firstNamed_not_mem hn (by simp [hname])

/-- The methods that are kept have the names that are not among `seen`, each where it comes first. -/
theorem names_firstNamed (seen : List String) (ms : List Source.Method) :
    (firstNamed seen ms).map Source.Method.name =
      ((ms.map Source.Method.name).filter fun name => !seen.contains name).eraseDups := by
  induction ms generalizing seen with
  | nil => rfl
  | cons m ms ih =>
    rw [firstNamed, List.map_cons]
    split
    · rename_i hseen
      rw [ih, List.filter_cons_of_neg (by simpa using hseen)]
    · rename_i hnew
      rw [List.filter_cons_of_pos (by simpa using hnew), List.eraseDups_cons, List.map_cons, ih,
        List.filter_filter]
      congr 3
      funext name
      by_cases hname : name = m.name <;> simp [hname]

/-! ## Steps -/

theorem Step.mem_allOf {s : Step} {ss : List Step} : s ∈ Step.allOf ss ↔ ∃ t ∈ ss, s ∈ t.all := by
  induction ss with
  | nil => simp [Step.allOf]
  | cons t ss ih => simp [Step.allOf, ih]

/-- A step changes only fields that are declared, and so do the steps inside it. -/
theorem mem_fields_of_mutate {d : Dialect} {fields : List String} {field value : String}
    (fuel : Nat) (t : Text) (h : Step.mutate field value ∈ (stepWithin d fields fuel t).all) :
    field ∈ fields := by
  induction fuel generalizing t with
  | zero => simp [stepWithin, kept, Step.all] at h
  | succ fuel ih =>
    -- the steps of the statements inside a statement are those of one level less
    have hinside : ∀ {ts : List Text},
        Step.mutate field value ∈ Step.allOf (ts.map (stepWithin d fields fuel)) → field ∈ fields := by
      intro ts hts
      obtain ⟨s, hs, hmutate⟩ := Step.mem_allOf.1 hts
      obtain ⟨u, -, rfl⟩ := List.mem_map.1 hs
      exact ih u hmutate
    rw [stepWithin] at h
    split at h
    · split at h
      · split at h
        · rename_i hdeclared
          simp only [Step.all, List.mem_singleton, Step.mutate.injEq] at h
          rw [h.1]
          exact List.contains_iff_mem.1 hdeclared
        · simp [kept, Step.all] at h
      · simp [kept, Step.all] at h
    · split at h
      · simp [Step.all] at h
      · simp only [Step.all, List.mem_cons, reduceCtorEq, List.mem_append, false_or] at h
        exact h.elim hinside hinside
    · simp only [Step.all, List.mem_cons, reduceCtorEq, false_or] at h
      exact hinside h
    all_goals simp [kept, Step.all] at h

theorem mem_fields_of_mutate_stepsOf {d : Dialect} {fields body : List String} {field value : String}
    (h : Step.mutate field value ∈ Step.allOf (stepsOf d fields body)) : field ∈ fields := by
  obtain ⟨s, hs, hmutate⟩ := Step.mem_allOf.1 h
  obtain ⟨t, -, rfl⟩ := List.mem_map.1 hs
  exact mem_fields_of_mutate _ _ hmutate

/-! ## Specifications -/

/-- What the fields and the actions of a specification are made of. -/
theorem specify_eq_ok {catalog : Catalog} {tags : Pattern.Tags} {e : Source.Entity}
    {s : Specification} (h : specify catalog tags e = .ok s) :
    List.Forall₂ (Becomes catalog e) e.fields s.fields ∧
      s.actions = (firstNamed [] (e.methods.filter qualifies)).map
        (actionOf (.ofFormat e.format) (e.fields.map Source.Field.name)) := by
  unfold specify at h
  split at h
  · cases h
  simp only [bind, Except.bind, pure, Except.pure] at h
  split at h
  · cases h
  · rename_i fields hfields
    split at h
    · rename_i made hmade
      cases h
      obtain ⟨hsame, hactions⟩ := Specification.make_eq_ok hmade
      refine ⟨?_, hactions⟩
      show List.Forall₂ _ _ made.fields
      rw [hsame]
      refine (forall₂_of_mapM_ok hfields).imp fun f g hfg => ?_
      split at hfg
      · rename_i r hr
        exact ⟨r, hr, (Except.ok.inj hfg).symm⟩
      · cases hfg
    · cases h

/-- What is asked of the specification of an entity. -/
structure WellFormed (catalog : Catalog) (e : Source.Entity) (s : Specification) : Prop where
  /-- The fields are those of the entity, in their order. -/
  names : s.fields.map Field.name = e.fields.map Source.Field.name
  targeted : ∀ f ∈ s.fields, f.type.root = .reference →
    ∃ target, f.reference = some target ∧ catalog.Reaches e.name target
  untargeted : ∀ f ∈ s.fields, f.type.root ≠ .reference → f.reference = none
  valued : ∀ f ∈ s.fields, f.type.root = .enumerated → f.values ≠ []
  coherent : ∀ f ∈ s.fields, f.Coherent
  /-- The actions are the methods that qualify, each name where it comes first. -/
  actions : s.actions.map Action.name =
    ((e.methods.filter qualifies).map Source.Method.name).eraseDups
  distinct : (s.actions.map Action.name).Nodup
  /-- A step at any depth changes only fields of the entity. -/
  mutations : ∀ a ∈ s.actions, ∀ field value, Step.mutate field value ∈ Step.allOf a.steps →
    field ∈ e.fields.map Source.Field.name

/-- **Every specification that is made of an entity is well formed**, and nothing in it points beyond
the entity and those that are known. -/
theorem specify_wellFormed (catalog : Catalog) (tags : Pattern.Tags) (e : Source.Entity)
    (s : Specification) (h : specify catalog tags e = .ok s) : WellFormed catalog e s := by
  obtain ⟨hfields, hactions⟩ := specify_eq_ok h
  have hmade : ∀ g ∈ s.fields, ∃ f, Becomes catalog e f g :=
    ((List.forall₂_and_left _ _).1 (hfields.flip.imp fun _ f hfg => ⟨⟨f, hfg⟩, hfg⟩)).1
  have hsound := s.sound_fields.1
  have hnames : s.actions.map Action.name =
      (firstNamed [] (e.methods.filter qualifies)).map Source.Method.name := by
    rw [hactions, List.map_map]
    rfl
  refine ⟨?_, fun g hg hroot => ?_, fun g hg hroot => ?_, fun g hg => (hsound g hg).valued,
    fun g hg => ?_, ?_, ?_, fun a ha field value hmutate => ?_⟩
  · refine List.forall₂_eq_eq_eq ▸ (List.forall₂_map_left_iff.2 (List.forall₂_map_right_iff.2 ?_))
    refine hfields.flip.imp fun g f hfg => ?_
    obtain ⟨r, -, rfl⟩ := hfg
    rfl
  · obtain ⟨target, htarget⟩ := Option.ne_none_iff_exists'.1 ((hsound g hg).targeted hroot)
    obtain ⟨f, r, hr, rfl⟩ := hmade g hg
    exact ⟨target, htarget, (resolveField_reference hr htarget).2⟩
  · obtain ⟨f, r, hr, rfl⟩ := hmade g hg
    rw [Option.eq_none_iff_forall_ne_some]
    intro target htarget
    exact hroot (root_fieldOf f r ▸ (resolveField_reference hr htarget).1)
  · obtain ⟨f, r, -, rfl⟩ := hmade g hg
    exact coherent_fieldOf f r
  · rw [hnames, names_firstNamed]
    simp
  · rw [hnames]
    exact nodup_firstNamed [] _
  · rw [hactions] at ha
    obtain ⟨m, -, rfl⟩ := List.mem_map.1 ha
    exact mem_fields_of_mutate_stepsOf hmutate

/-- An entity with a reference by its type and one to itself, a method that is there twice and one
that does not qualify. -/
def order : Source.Entity where
  name := "Order"
  fields := [
    .plain "customer" (.unresolved "Optional[crm.Customer]"),
    .pointing "parent" "order",
    { Source.Field.choosing "status" ["open", "shipped"] with required := false }]
  methods := [
    { name := "__init__" },
    { name := "ship"
      body := ["if self.status == 'open':\n    self.status = 'shipped'\nelse:\n    self.log = 1"] },
    { name := "close", body := ["self.status = 'closed'"] },
    { name := "ship", body := ["pass"] }]
  format := .python

theorem specify_wellFormed_order : ∃ s, specify (.ofNames ["Customer"]) .empty order = .ok s ∧
    s.actions.map Action.name = ["ship", "close"] ∧ WellFormed (.ofNames ["Customer"]) order s := by
  have hok : (specify (.ofNames ["Customer"]) .empty order).isOk = true := by decide +kernel
  cases hs : specify (.ofNames ["Customer"]) .empty order with
  | error failure => simp [hs, Except.isOk, Except.toBool] at hok
  | ok s =>
    have hwell := specify_wellFormed _ _ _ s hs
    refine ⟨s, rfl, ?_, hwell⟩
    rw [hwell.actions]
    decide +kernel

end Mapping

end Concord
