/-
When an entity has no specification, and what is said then. An entity that is not acceptable as it
stands is refused for that. One that is acceptable is refused for the first field whose type means
nothing, and where each means something, for the first whose type text names a reference or an
enumeration without what it needs. Nothing else can go wrong (`specify_refused_iff`): each action
has a name, and no two have the same, whatever the bodies of the methods are.
-/
import Concord.Proofs.Mapping.WellFormed

namespace Concord

open Naming Text

/-! ## The first that fails -/

/-- `a` is the first of a list that is not `P`. -/
inductive FirstNot {α : Type} (P : α → Prop) : List α → α → Prop where
  | here {a : α} {as : List α} (h : ¬ P a) : FirstNot P (a :: as) a
  | later {a b : α} {as : List α} (hb : P b) (h : FirstNot P as a) : FirstNot P (b :: as) a

theorem FirstNot.mem {α : Type} {P : α → Prop} {a : α} {as : List α} (h : FirstNot P as a) :
    a ∈ as ∧ ¬ P a := by
  induction h with
  | here h => exact ⟨List.mem_cons_self, h⟩
  | later _ _ ih => exact ⟨List.mem_cons_of_mem _ ih.1, ih.2⟩

theorem exists_firstNot_cons {α : Type} {P Q : α → Prop} {a : α} {as : List α} :
    (∃ c, FirstNot P (a :: as) c ∧ Q c) ↔ (¬ P a ∧ Q a) ∨ (P a ∧ ∃ c, FirstNot P as c ∧ Q c) := by
  constructor
  · rintro ⟨c, hfirst, hc⟩
    cases hfirst with
    | here h => exact .inl ⟨h, hc⟩
    | later ha h => exact .inr ⟨ha, c, h, hc⟩
  · rintro (⟨ha, hc⟩ | ⟨ha, c, hfirst, hc⟩)
    · exact ⟨a, .here ha, hc⟩
    · exact ⟨c, .later ha hfirst, hc⟩

theorem findSome?_cons_eq_some {α β : Type} {search : α → Option β} {a : α} {as : List α} {b : β} :
    (a :: as).findSome? search = some b ↔
      search a = some b ∨ (search a = none ∧ as.findSome? search = some b) := by
  rw [List.findSome?_cons]
  cases search a <;> simp

/-- Where there is at most one answer, it is given exactly when there is to be any. -/
theorem eq_some_iff_of_unique {β : Type} {found : Option β} {P : Prop} {Answer : β → Prop}
    (hnone : found = none ↔ P) (hsome : ∀ b, found = some b → Answer b)
    (hunique : ∀ b b', Answer b → Answer b' → b = b') (b : β) :
    found = some b ↔ ¬ P ∧ Answer b := by
  rw [← hnone]
  cases found with
  | none => simp
  | some b' =>
    have hb' : Answer b' := hsome b' rfl
    simp only [Option.some.injEq, reduceCtorEq, not_false_iff, true_and]
    constructor
    · rintro rfl
      exact hb'
    · exact hunique b' b hb'

/-- A search that answers exactly at what is not `P` answers at the first of it. -/
theorem findSome?_eq_some_iff_firstNot {α β : Type} {search : α → Option β} {P : α → Prop}
    {Answer : α → β → Prop} {as : List α} (hnone : ∀ a ∈ as, search a = none ↔ P a)
    (hsome : ∀ a ∈ as, ∀ b, search a = some b ↔ ¬ P a ∧ Answer a b) (b : β) :
    as.findSome? search = some b ↔ ∃ a, FirstNot P as a ∧ Answer a b := by
  induction as with
  | nil =>
    constructor
    · intro h
      cases h
    · rintro ⟨a, hfirst, -⟩
      cases hfirst
  | cons a as ih =>
    rw [List.forall_mem_cons] at hnone hsome
    rw [findSome?_cons_eq_some, exists_firstNot_cons (Q := (Answer · b)), hsome.1, hnone.1,
      ih hnone.2 hsome.2]

namespace Mapping

open Spec

/-! ## What is asked of a field -/

/-- A name that means an entity inside `owner`: the entity itself, or one that is known. -/
def Finds (catalog : Catalog) (owner name : String) : Prop :=
  squash (trim name.toList) = squash owner.toList ∨ ∃ found, catalog.resolve? name = some found

/-- A type text of a source without its wrappers. -/
def peeled (format : Source.Format) (raw : String) : Typing.Peeled :=
  (Typing.Wrappers.ofFormat format).peel raw.toList

/-- A type text names a base type in lower case. -/
def Names (format : Source.Format) (raw : String) (b : BaseType) : Prop :=
  String.ofList (lower (peeled format raw).name) = b.name

/-- A type text that is a collection or an entity. -/
def Composite (catalog : Catalog) (e : Source.Entity) (raw : String) : Prop :=
  (peeled e.format raw).collection = true ∨
    Finds catalog e.name (String.ofList (peeled e.format raw).name)

/-- The type of a field means something inside its entity. A reference points at an entity, and a
text is a collection, an entity or the name of a base type that is `admitted`. -/
def Meaningful (catalog : Catalog) (e : Source.Entity) (admitted : BaseType → Prop)
    (f : Source.Field) : Prop :=
  match f.type with
  | .known b => b = .reference →
    ∃ target, f.reference = some target ∧ Finds catalog e.name target
  | .unresolved raw => Composite catalog e raw ∨ ∃ b, Names e.format raw b ∧ admitted b

/-- The type of a field means something, whichever base type its text names. -/
def Resolves (catalog : Catalog) (e : Source.Entity) (f : Source.Field) : Prop :=
  Meaningful catalog e (fun _ => True) f

/-- The type of a field means something, and its text does not name a reference, nor an enumeration
when the field has no values. -/
def Accepted (catalog : Catalog) (e : Source.Entity) (f : Source.Field) : Prop :=
  Meaningful catalog e (fun b => b ≠ .reference ∧ (b = .enumerated → f.values ≠ [])) f

/-- What is said of a field that does not resolve. -/
inductive Cause (f : Source.Field) : MappingCause → Prop where
  | target {target : String} (htype : f.type = .known .reference)
      (htarget : f.reference = some target) : Cause f (.unknownTarget target f.name)
  | text {raw : String} (htype : f.type = .unresolved raw) : Cause f (.unresolvedType raw f.name)

/-- What is said of a field that resolves but is not accepted. -/
inductive Lacks (format : Source.Format) (f : Source.Field) : Schema.Defect → Prop where
  | target {raw : String} (htype : f.type = .unresolved raw)
      (hname : Names format raw .reference) : Lacks format f (.untargetedReference f.name)
  | values {raw : String} (htype : f.type = .unresolved raw)
      (hname : Names format raw .enumerated) : Lacks format f (.valuelessEnumeration f.name)

/-- The failures of an entity. -/
inductive Refused (catalog : Catalog) (e : Source.Entity) : Failure → Prop where
  | invalid {defect : Schema.Defect} (hdefect : e.defect? = some defect) :
      Refused catalog e (.schema e.reportName defect)
  | unresolved {f : Source.Field} {cause : MappingCause} (hvalid : e.defect? = none)
      (hfirst : FirstNot (Resolves catalog e) e.fields f) (hcause : Cause f cause) :
      Refused catalog e (.mapping e.name cause)
  | incomplete {f : Source.Field} {defect : Schema.Defect} (hvalid : e.defect? = none)
      (hresolved : ∀ g ∈ e.fields, Resolves catalog e g)
      (hfirst : FirstNot (Accepted catalog e) e.fields f) (hlacks : Lacks e.format f defect) :
      Refused catalog e (.schema e.name defect)

/-! ## One field -/

theorem resolveFor?_eq_none_iff {catalog : Catalog} {name owner : String} :
    catalog.resolveFor? name owner = none ↔ ¬ Finds catalog owner name := by
  rw [Catalog.resolveFor?, Finds]
  by_cases hself : squash (trim name.toList) = squash owner.toList
  · simp [hself]
  · simp [hself, Option.eq_none_iff_forall_ne_some]

theorem finds_of_resolveFor? {catalog : Catalog} {name owner entity : String}
    (h : catalog.resolveFor? name owner = some entity) : Finds catalog owner name := by
  by_contra hfinds
  rw [resolveFor?_eq_none_iff.2 hfinds] at h
  cases h

theorem ofName?_eq_some_iff {s : String} {b : BaseType} :
    BaseType.ofName? s = some b ↔ s = b.name := by
  constructor
  · intro h
    have hname := List.find?_some h
    exact (beq_iff_eq.1 hname).symm
  · rintro rfl
    exact BaseType.ofName?_name b

section Field

variable {catalog : Catalog} {e : Source.Entity} {f : Source.Field} {raw : String}

theorem Names.unique {a b : BaseType} (ha : Names e.format raw a) (hb : Names e.format raw b) :
    a = b := by
  have h : BaseType.ofName? a.name = some b := ofName?_eq_some_iff.2 (ha.symm.trans hb)
  rw [BaseType.ofName?_name] at h
  exact Option.some.inj h

theorem Cause.unique {c c' : MappingCause} (h : Cause f c) (h' : Cause f c') : c = c' := by
  cases h <;> cases h' <;> simp_all

theorem Lacks.unique {d d' : Schema.Defect} (h : Lacks e.format f d)
    (h' : Lacks e.format f d') : d = d' := by
  cases h with
  | target htype hname =>
    cases h' with
    | target => rfl
    | values htype' hname' =>
      cases htype.symm.trans htype'
      cases hname.unique hname'
  | values htype hname =>
    cases h' with
    | target htype' hname' =>
      cases htype.symm.trans htype'
      cases hname.unique hname'
    | values => rfl

/-- What comes of the type of a field, and when. -/
inductive Resolution (catalog : Catalog) (e : Source.Entity) (f : Source.Field) :
    Except MappingCause Resolved → Prop where
  /-- The type has all it needs, whatever base types may be named. -/
  | settled {r : Resolved} (hmeans : ∀ admitted, Meaningful catalog e admitted f)
      (htarget : r.type = .reference → r.reference ≠ none)
      (hvalues : r.type = .enumerated → f.values ≠ []) : Resolution catalog e f (.ok r)
  | named {raw : String} {b : BaseType} {nullable : Bool} (htype : f.type = .unresolved raw)
      (hplain : ¬ Composite catalog e raw) (hname : Names e.format raw b) :
      Resolution catalog e f (.ok ⟨b, none, nullable⟩)
  | lost {cause : MappingCause} (hlost : ¬ Resolves catalog e f) (hcause : Cause f cause) :
      Resolution catalog e f (.error cause)

theorem resolution_text (htype : f.type = .unresolved raw) :
    Resolution catalog e f (resolveField (.ofFormat e.format) catalog e.name f) := by
  have hcomposite : Composite catalog e raw → ∀ admitted, Meaningful catalog e admitted f := by
    intro h admitted
    rw [Meaningful, htype]
    exact .inl h
  have hfield : resolveField (.ofFormat e.format) catalog e.name f =
      (resolvePeeled? catalog e.name (peeled e.format raw)).elim
        (.error (.unresolvedType raw f.name)) .ok := by
    simp only [resolveField, htype, resolveType?, ← peeled.eq_def]
    cases resolvePeeled? catalog e.name (peeled e.format raw) <;> rfl
  rw [hfield, resolvePeeled?]
  by_cases hmany : (peeled e.format raw).collection = true
  · rw [if_pos hmany]
    exact .settled (hcomposite (.inl hmany)) nofun nofun
  rw [if_neg hmany]
  cases hentity : catalog.resolveFor? (String.ofList (peeled e.format raw).name) e.name with
  | some entity =>
    exact .settled (hcomposite (.inr (finds_of_resolveFor? hentity))) nofun nofun
  | none =>
    have hplain : ¬ Composite catalog e raw := by
      rintro (h | h)
      · exact hmany h
      · exact resolveFor?_eq_none_iff.1 hentity h
    cases hbase : BaseType.ofName? (String.ofList (lower (peeled e.format raw).name)) with
    | some b => exact .named htype hplain (ofName?_eq_some_iff.1 hbase)
    | none =>
      refine .lost ?_ (.text htype)
      rw [Resolves, Meaningful, htype]
      rintro (h | ⟨b, hname, -⟩)
      · exact hplain h
      · rw [ofName?_eq_some_iff.2 hname] at hbase
        cases hbase

theorem resolution_reference {target : String} (htype : f.type = .known .reference)
    (htarget : f.reference = some target) :
    Resolution catalog e f (resolveField (.ofFormat e.format) catalog e.name f) := by
  have hfield : resolveField (.ofFormat e.format) catalog e.name f =
      (catalog.resolveFor? target e.name).elim (.error (.unknownTarget target f.name))
        fun entity => .ok ⟨.reference, some entity, false⟩ := by
    simp only [resolveField, htype, htarget, Option.getD_some]
    cases catalog.resolveFor? target e.name <;> rfl
  rw [hfield]
  cases hentity : catalog.resolveFor? target e.name with
  | some entity =>
    refine .settled (fun admitted => ?_) nofun nofun
    rw [Meaningful, htype]
    exact fun _ => ⟨target, htarget, finds_of_resolveFor? hentity⟩
  | none =>
    refine .lost ?_ (.target htype htarget)
    rw [Resolves, Meaningful, htype]
    intro h
    obtain ⟨t, ht, hfinds⟩ := h rfl
    cases htarget.symm.trans ht
    exact resolveFor?_eq_none_iff.1 hentity hfinds

/-- What the type of a field that is complete as it stands comes to. -/
theorem resolution_resolveField (h : f.Complete) :
    Resolution catalog e f (resolveField (.ofFormat e.format) catalog e.name f) := by
  cases htype : f.type with
  | unresolved raw => exact resolution_text htype
  | known b =>
    by_cases hb : b = .reference
    · subst hb
      obtain ⟨target, htarget⟩ := Option.ne_none_iff_exists'.1 (h.targeted htype)
      exact resolution_reference htype htarget
    · have hfield : resolveField (.ofFormat e.format) catalog e.name f = .ok ⟨b, none, false⟩ := by
        rw [resolveField, htype]
        cases b <;> first | rfl | exact absurd rfl hb
      rw [hfield]
      refine .settled (fun admitted => ?_) (fun h => absurd h hb) fun hvalues => ?_
      · rw [Meaningful, htype]
        exact fun h => absurd h hb
      · cases hvalues
        exact h.valued htype

end Field

/-- Why the type of a field means nothing, if so. -/
def lost? (catalog : Catalog) (e : Source.Entity) (f : Source.Field) : Option MappingCause :=
  match resolveField (.ofFormat e.format) catalog e.name f with
  | .ok _ => none
  | .error cause => some cause

/-- What a field whose type means something lacks for a specification. -/
def lacking? (catalog : Catalog) (e : Source.Entity) (f : Source.Field) : Option Schema.Defect :=
  match resolveField (.ofFormat e.format) catalog e.name f with
  | .ok r => fieldDefect? [] (fieldOf f r)
  | .error _ => none

section Field

variable {catalog : Catalog} {e : Source.Entity} {f : Source.Field}

theorem resolves_of_names {raw : String} {b : BaseType} (htype : f.type = .unresolved raw)
    (hname : Names e.format raw b) : Resolves catalog e f := by
  rw [Resolves, Meaningful, htype]
  exact .inr ⟨b, hname, trivial⟩

theorem accepted_iff_of_names {raw : String} {b : BaseType} (htype : f.type = .unresolved raw)
    (hplain : ¬ Composite catalog e raw) (hname : Names e.format raw b) :
    Accepted catalog e f ↔ b ≠ .reference ∧ (b = .enumerated → f.values ≠ []) := by
  rw [Accepted, Meaningful, htype]
  constructor
  · rintro (h | ⟨c, hc, hadmitted⟩)
    · exact absurd h hplain
    · rwa [hname.unique hc]
  · intro hadmitted
    exact .inr ⟨b, hname, hadmitted⟩

theorem lost?_eq_none_iff (h : f.Complete) : lost? catalog e f = none ↔ Resolves catalog e f := by
  have hresolution : Resolution catalog e f _ := resolution_resolveField h
  unfold lost?
  generalize resolveField (.ofFormat e.format) catalog e.name f = outcome at hresolution
  cases hresolution with
  | settled hmeans => simp [Resolves, hmeans]
  | named htype _ hname => simp [resolves_of_names htype hname]
  | lost hlost => simp [hlost]

theorem cause_of_lost? (h : f.Complete) {cause : MappingCause}
    (hlost : lost? catalog e f = some cause) : Cause f cause := by
  have hresolution : Resolution catalog e f _ := resolution_resolveField h
  unfold lost? at hlost
  generalize resolveField (.ofFormat e.format) catalog e.name f = outcome at hresolution hlost
  cases hresolution with
  | settled => cases hlost
  | named => cases hlost
  | lost _ hcause => exact Option.some.inj hlost ▸ hcause

theorem fieldDefect?_fieldOf_of_settled {r : Resolved} (hname : allBlank f.name.toList = false)
    (htarget : r.type = .reference → r.reference ≠ none)
    (hvalues : r.type = .enumerated → f.values ≠ []) : fieldDefect? [] (fieldOf f r) = none := by
  rw [fieldDefect?_eq_none_iff]
  refine ⟨⟨hname, ?_, ?_⟩, List.not_mem_nil⟩
  · rwa [root_fieldOf]
  · rwa [root_fieldOf]

theorem lacking?_eq_none_iff (h : f.Complete) (hname : allBlank f.name.toList = false)
    (hresolves : Resolves catalog e f) : lacking? catalog e f = none ↔ Accepted catalog e f := by
  have hresolution : Resolution catalog e f _ := resolution_resolveField h
  unfold lacking?
  generalize resolveField (.ofFormat e.format) catalog e.name f = outcome at hresolution
  cases hresolution with
  | settled hmeans htarget hvalues =>
    simp [Accepted, hmeans, fieldDefect?_fieldOf_of_settled hname htarget hvalues]
  | @named raw b _ htype hplain hb =>
    simp only [accepted_iff_of_names htype hplain hb, fieldDefect?_eq_none_iff]
    constructor
    · rintro ⟨hsound, -⟩
      refine ⟨fun h => hsound.targeted ?_ rfl, fun h => hsound.valued ?_⟩
      all_goals rwa [root_fieldOf]
    · rintro ⟨hreference, hvalues⟩
      refine ⟨⟨hname, ?_, ?_⟩, List.not_mem_nil⟩
      · rw [root_fieldOf]
        exact fun h => absurd h hreference
      · rwa [root_fieldOf]
  | lost hlost => exact absurd hresolves hlost

theorem lacks_of_lacking? (h : f.Complete) (hname : allBlank f.name.toList = false)
    {defect : Schema.Defect} (hlacking : lacking? catalog e f = some defect) :
    Lacks e.format f defect := by
  have hresolution : Resolution catalog e f _ := resolution_resolveField h
  unfold lacking? at hlacking
  generalize resolveField (.ofFormat e.format) catalog e.name f = outcome at hresolution hlacking
  cases hresolution with
  | settled hmeans htarget hvalues =>
    simp [fieldDefect?_fieldOf_of_settled hname htarget hvalues] at hlacking
  | @named raw b _ htype hplain hb =>
    simp only [fieldDefect?, root_fieldOf, name_fieldOf, hname, Bool.false_eq_true, if_false,
      List.contains_nil, Bool.and_eq_true, beq_iff_eq] at hlacking
    split at hlacking
    · rename_i hreference
      cases hlacking
      exact .target htype (hreference.1 ▸ hb)
    · split at hlacking
      · rename_i henumerated
        cases hlacking
        exact .values htype (henumerated.1 ▸ hb)
      · cases hlacking
  | lost => cases hlacking

end Field

/-! ## All fields -/

section Fields

variable {catalog : Catalog} {e : Source.Entity}

/-- What becomes of a field, where it may fail. -/
def made (catalog : Catalog) (e : Source.Entity) (f : Source.Field) : Except Failure Field :=
  match resolveField (.ofFormat e.format) catalog e.name f with
  | .ok r => .ok (fieldOf f r)
  | .error cause => .error (.mapping e.name cause)

theorem becomes_of_made {f : Source.Field} {g : Field} (h : made catalog e f = .ok g) :
    Becomes catalog e f g := by
  unfold made at h
  split at h
  · rename_i r hr
    exact ⟨r, hr, (Except.ok.inj h).symm⟩
  · cases h

/-- Fields fail to be made for the first whose type means nothing. -/
theorem mapM_made_eq_error_iff (fs : List Source.Field) (failure : Failure) :
    fs.mapM (made catalog e) = .error failure ↔
      ∃ cause, fs.findSome? (lost? catalog e) = some cause ∧ failure = .mapping e.name cause := by
  induction fs with
  | nil => simp [pure, Except.pure]
  | cons f fs ih =>
    rw [List.mapM_cons]
    simp only [findSome?_cons_eq_some]
    cases hf : resolveField (.ofFormat e.format) catalog e.name f with
    | error cause =>
      have hmade : made catalog e f = .error (.mapping e.name cause) := by rw [made, hf]
      have hlost : lost? catalog e f = some cause := by rw [lost?, hf]
      simp [hmade, hlost, bind, Except.bind, eq_comm]
    | ok r =>
      have hmade : made catalog e f = .ok (fieldOf f r) := by rw [made, hf]
      have hlost : lost? catalog e f = none := by rw [lost?, hf]
      simp only [hlost, reduceCtorEq, false_or, true_and, ← ih, hmade]
      cases fs.mapM (made catalog e) <;> simp [bind, Except.bind, pure, Except.pure]

/-- Fields that are made lack what the first of the entity's fields lacks that lacks anything. -/
theorem findSome?_fieldDefect? {fs : List Source.Field} {gs : List Field}
    (h : List.Forall₂ (Becomes catalog e) fs gs) :
    gs.findSome? (fieldDefect? []) = fs.findSome? (lacking? catalog e) := by
  induction h with
  | nil => rfl
  | @cons f g fs gs hfg _ ih =>
    obtain ⟨r, hr, rfl⟩ := hfg
    have hlacking : lacking? catalog e f = fieldDefect? [] (fieldOf f r) := by rw [lacking?, hr]
    rw [List.findSome?_cons, List.findSome?_cons, ih, hlacking]

theorem names_of_becomes {fs : List Source.Field} {gs : List Field}
    (h : List.Forall₂ (Becomes catalog e) fs gs) :
    gs.map Field.name = fs.map Source.Field.name := by
  induction h with
  | nil => rfl
  | cons hfg _ ih =>
    obtain ⟨r, -, rfl⟩ := hfg
    rw [List.map_cons, List.map_cons, ih, name_fieldOf]

end Fields

/-- Where all names are in order, the first defect is one that a field has on its own. -/
theorem fieldsDefect?_eq_findSome? {seen : List String} {gs : List Field}
    (hnew : ∀ g ∈ gs, g.name ∉ seen) (hdistinct : (gs.map Field.name).Nodup) :
    fieldsDefect? seen gs = gs.findSome? (fieldDefect? []) := by
  induction gs generalizing seen with
  | nil => rfl
  | cons g gs ih =>
    rw [List.forall_mem_cons] at hnew
    rw [List.map_cons, List.nodup_cons] at hdistinct
    have hrest : fieldsDefect? (g.name :: seen) gs = gs.findSome? (fieldDefect? []) := by
      refine ih (fun k hk hmem => ?_) hdistinct.2
      rcases List.mem_cons.1 hmem with hsame | hmem
      · exact hdistinct.1 (List.mem_map.2 ⟨k, hk, hsame⟩)
      · exact hnew.2 k hk hmem
    have hown : fieldDefect? seen g = fieldDefect? [] g := by
      simp [fieldDefect?, hnew.1]
    rw [fieldsDefect?, hrest, hown, List.findSome?_cons]
    cases fieldDefect? [] g <;> rfl

/-- What is wrong with the name of one action when the actions before it have the names `seen`. -/
def actionDefect? (seen : List String) (a : Action) : Option Schema.Defect :=
  if allBlank a.name.toList then some .emptyActionName
  else if seen.contains a.name then some (.duplicateAction a.name)
  else none

theorem actionsDefect?_cons (seen : List String) (a : Action) (rest : List Action) :
    actionsDefect? seen (a :: rest) =
      (actionDefect? seen a).or (actionsDefect? (a.name :: seen) rest) := by
  rw [actionsDefect?, actionDefect?]
  split
  · rfl
  · split <;> rfl

theorem actionDefect?_eq_none_iff (seen : List String) (a : Action) :
    actionDefect? seen a = none ↔ allBlank a.name.toList = false ∧ a.name ∉ seen := by
  rw [actionDefect?]
  cases allBlank a.name.toList <;> simp

/-- Nothing is wrong with actions of different names. -/
theorem actionsDefect?_nil_iff (as : List Action) : actionsDefect? [] as = none ↔
    (∀ a ∈ as, allBlank a.name.toList = false) ∧ (as.map Action.name).Nodup := by
  rw [Schema.check_eq_none_iff (fun _ => rfl) actionsDefect?_cons actionDefect?_eq_none_iff]
  simp

/-! ## Entities -/

/-- The actions of an entity. -/
def actionsOf (e : Source.Entity) : List Action :=
  (firstNamed [] (e.methods.filter qualifies)).map
    (actionOf (.ofFormat e.format) (e.fields.map Source.Field.name))

theorem mem_of_mem_firstNamed {seen : List String} {ms : List Source.Method} {m : Source.Method}
    (h : m ∈ firstNamed seen ms) : m ∈ ms := by
  induction ms generalizing seen with
  | nil => cases h
  | cons n ms ih =>
    rw [firstNamed] at h
    split at h
    · exact List.mem_cons_of_mem n (ih h)
    · rcases List.mem_cons.1 h with rfl | h
      · exact List.mem_cons_self
      · exact List.mem_cons_of_mem n (ih h)

/-- Nothing can be wrong with the actions of an entity whose methods have names. -/
theorem actionsDefect?_actionsOf {e : Source.Entity}
    (h : ∀ m ∈ e.methods, allBlank m.name.toList = false) :
    actionsDefect? [] (actionsOf e) = none := by
  rw [actionsDefect?_nil_iff]
  constructor
  · intro a ha
    obtain ⟨m, hm, rfl⟩ := List.mem_map.1 ha
    exact h m (List.mem_filter.1 (mem_of_mem_firstNamed hm)).1
  · rw [actionsOf, List.map_map]
    exact nodup_firstNamed [] _

section Entity

variable {catalog : Catalog} {tags : Pattern.Tags} {e : Source.Entity}

/-- Where the fields of an acceptable entity are made, its specification has the defect that the
first of its fields has that lacks anything. -/
theorem defect?_of_becomes {gs : List Field} (hnamed : e.Named)
    (h : List.Forall₂ (Becomes catalog e) e.fields gs) :
    Spec.defect? e.name gs (actionsOf e) = e.fields.findSome? (lacking? catalog e) := by
  have hdistinct : (gs.map Field.name).Nodup := names_of_becomes h ▸ hnamed.distinct
  have hfields : fieldsDefect? [] gs = e.fields.findSome? (lacking? catalog e) := by
    rw [fieldsDefect?_eq_findSome? (fun _ _ => List.not_mem_nil) hdistinct,
      findSome?_fieldDefect? h]
  simp only [Spec.defect?, hnamed.name, hfields, actionsDefect?_actionsOf hnamed.methods]
  simp

theorem specify_of_defect {d : Schema.Defect} (h : e.defect? = some d) :
    specify catalog tags e = .error (.schema e.reportName d) := by
  unfold specify
  rw [h]
  rfl

theorem specify_of_valid (h : e.defect? = none) : specify catalog tags e =
    (e.fields.mapM (made catalog e)).bind fun fields =>
      match Specification.make e.name e.space fields (actionsOf e) e.format with
      | .ok s => .ok (s.withTags tags)
      | .error (entity, defect) => .error (.schema entity defect) := by
  unfold specify
  rw [h]
  rfl

theorem make_of_defect {entity space : String} {fields : List Field} {actions : List Action}
    {format : Source.Format} {d : Schema.Defect} (hname : allBlank entity.toList = false)
    (h : Spec.defect? entity fields actions = some d) :
    Specification.make entity space fields actions format = .error (entity, d) := by
  unfold Specification.make
  split
  · rename_i d' hd'
    cases h.symm.trans hd'
    simp [hname]
  · rename_i hnone
    cases h.symm.trans hnone

/-- An entity that is acceptable as it stands fails for the first field whose type means nothing, or
else for the first that lacks anything. -/
theorem specify_eq_error_iff (hvalid : e.defect? = none) (failure : Failure) :
    specify catalog tags e = .error failure ↔
      (∃ cause, e.fields.findSome? (lost? catalog e) = some cause ∧
        failure = .mapping e.name cause) ∨
      (e.fields.findSome? (lost? catalog e) = none ∧
        ∃ defect, e.fields.findSome? (lacking? catalog e) = some defect ∧
          failure = .schema e.name defect) := by
  have hnamed : e.Named := ((Source.Entity.defect?_eq_none_iff e).1 hvalid).1
  rw [specify_of_valid hvalid, ← mapM_made_eq_error_iff]
  cases hmade : e.fields.mapM (made catalog e) with
  | error failure' =>
    obtain ⟨cause, hcause, rfl⟩ := (mapM_made_eq_error_iff e.fields failure').1 hmade
    simp [Except.bind, hcause]
  | ok gs =>
    have hlost : e.fields.findSome? (lost? catalog e) = none := by
      rw [Option.eq_none_iff_forall_ne_some]
      intro cause hcause
      cases hmade.symm.trans ((mapM_made_eq_error_iff e.fields _).2 ⟨cause, hcause, rfl⟩)
    have hbecomes : List.Forall₂ (Becomes catalog e) e.fields gs :=
      (forall₂_of_mapM_ok hmade).imp fun _ _ => becomes_of_made
    have hdefect := defect?_of_becomes hnamed hbecomes
    simp only [Except.bind, hlost, reduceCtorEq, false_or, true_and, ← hdefect]
    cases hd : Spec.defect? e.name gs (actionsOf e) with
    | some d => simp [make_of_defect hnamed.name hd, eq_comm]
    | none => simp [Specification.make_of_sound hd]

section Valid

variable (hvalid : e.defect? = none)

include hvalid

theorem complete_of_valid : ∀ f ∈ e.fields, f.Complete ∧ allBlank f.name.toList = false := by
  obtain ⟨hnamed, hcomplete⟩ := (Source.Entity.defect?_eq_none_iff e).1 hvalid
  exact fun f hf => ⟨hcomplete f hf, hnamed.fields f hf⟩

theorem findSome?_lost?_eq_none_iff :
    e.fields.findSome? (lost? catalog e) = none ↔ ∀ f ∈ e.fields, Resolves catalog e f := by
  rw [List.findSome?_eq_none_iff]
  exact forall₂_congr fun f hf => lost?_eq_none_iff (complete_of_valid hvalid f hf).1

theorem findSome?_lost?_eq_some_iff (cause : MappingCause) :
    e.fields.findSome? (lost? catalog e) = some cause ↔
      ∃ f, FirstNot (Resolves catalog e) e.fields f ∧ Cause f cause := by
  refine findSome?_eq_some_iff_firstNot (fun f hf => ?_) (fun f hf => ?_) cause
  all_goals obtain ⟨hcomplete, -⟩ := complete_of_valid hvalid f hf
  · exact lost?_eq_none_iff hcomplete
  · exact eq_some_iff_of_unique (lost?_eq_none_iff hcomplete) (fun _ => cause_of_lost? hcomplete)
      fun _ _ => Cause.unique

variable (hresolves : ∀ f ∈ e.fields, Resolves catalog e f)

include hresolves

theorem findSome?_lacking?_eq_none_iff :
    e.fields.findSome? (lacking? catalog e) = none ↔ ∀ f ∈ e.fields, Accepted catalog e f := by
  rw [List.findSome?_eq_none_iff]
  refine forall₂_congr fun f hf => ?_
  obtain ⟨hcomplete, hname⟩ := complete_of_valid hvalid f hf
  exact lacking?_eq_none_iff hcomplete hname (hresolves f hf)

theorem findSome?_lacking?_eq_some_iff (defect : Schema.Defect) :
    e.fields.findSome? (lacking? catalog e) = some defect ↔
      ∃ f, FirstNot (Accepted catalog e) e.fields f ∧ Lacks e.format f defect := by
  refine findSome?_eq_some_iff_firstNot (fun f hf => ?_) (fun f hf => ?_) defect
  all_goals
    obtain ⟨hcomplete, hname⟩ := complete_of_valid hvalid f hf
    have hnone := lacking?_eq_none_iff hcomplete hname (hresolves f hf)
  · exact hnone
  · exact eq_some_iff_of_unique hnone (fun _ => lacks_of_lacking? hcomplete hname)
      fun _ _ => Lacks.unique

end Valid

/-- An entity is refused for one of its reasons, and for no other. -/
theorem specify_eq_error_iff_refused (failure : Failure) :
    specify catalog tags e = .error failure ↔ Refused catalog e failure := by
  cases hdefect : e.defect? with
  | some d =>
    rw [specify_of_defect hdefect]
    constructor
    · rintro ⟨⟩
      exact .invalid hdefect
    · rintro (hd | hvalid | hvalid)
      · rw [hdefect] at hd
        cases hd
        rfl
      · cases hdefect.symm.trans hvalid
      · cases hdefect.symm.trans hvalid
  | none =>
    rw [specify_eq_error_iff hdefect]
    constructor
    · rintro (⟨cause, hcause, rfl⟩ | ⟨hlost, defect, hlacking, rfl⟩)
      · obtain ⟨f, hfirst, hcause⟩ := (findSome?_lost?_eq_some_iff hdefect cause).1 hcause
        exact .unresolved hdefect hfirst hcause
      · have hresolves := (findSome?_lost?_eq_none_iff hdefect).1 hlost
        obtain ⟨f, hfirst, hlacks⟩ :=
          (findSome?_lacking?_eq_some_iff hdefect hresolves defect).1 hlacking
        exact .incomplete hdefect hresolves hfirst hlacks
    · rintro (hd | ⟨-, hfirst, hcause⟩ | ⟨-, hresolves, hfirst, hlacks⟩)
      · cases hdefect.symm.trans hd
      · exact .inl ⟨_, (findSome?_lost?_eq_some_iff hdefect _).2 ⟨_, hfirst, hcause⟩, rfl⟩
      · exact .inr ⟨(findSome?_lost?_eq_none_iff hdefect).2 hresolves, _,
          (findSome?_lacking?_eq_some_iff hdefect hresolves _).2 ⟨_, hfirst, hlacks⟩, rfl⟩

theorem resolves_of_accepted {f : Source.Field} (h : Accepted catalog e f) :
    Resolves catalog e f := by
  rw [Accepted, Meaningful] at h
  rw [Resolves, Meaningful]
  split at h
  · exact h
  · rcases h with h | ⟨b, hname, -⟩
    · exact .inl h
    · exact .inr ⟨b, hname, trivial⟩

/-- An entity is refused for nothing exactly when it is acceptable and each field is accepted. -/
theorem not_refused_iff : (∀ failure, ¬ Refused catalog e failure) ↔
    e.defect? = none ∧ ∀ f ∈ e.fields, Accepted catalog e f := by
  constructor
  · intro h
    have hvalid : e.defect? = none :=
      Option.eq_none_iff_forall_ne_some.2 fun d hd => h _ (.invalid hd)
    have hresolves : ∀ f ∈ e.fields, Resolves catalog e f := by
      rw [← findSome?_lost?_eq_none_iff hvalid, Option.eq_none_iff_forall_ne_some]
      intro cause hlost
      obtain ⟨f, hfirst, hcause⟩ := (findSome?_lost?_eq_some_iff hvalid cause).1 hlost
      exact h _ (.unresolved hvalid hfirst hcause)
    refine ⟨hvalid, ?_⟩
    rw [← findSome?_lacking?_eq_none_iff hvalid hresolves, Option.eq_none_iff_forall_ne_some]
    intro defect hlacking
    obtain ⟨f, hfirst, hlacks⟩ :=
      (findSome?_lacking?_eq_some_iff hvalid hresolves defect).1 hlacking
    exact h _ (.incomplete hvalid hresolves hfirst hlacks)
  · rintro ⟨hvalid, haccepted⟩ failure (hd | ⟨-, hfirst, -⟩ | ⟨-, -, hfirst, -⟩)
    · cases hvalid.symm.trans hd
    · obtain ⟨hf, hnot⟩ := hfirst.mem
      exact hnot (resolves_of_accepted (haccepted _ hf))
    · obtain ⟨hf, hnot⟩ := hfirst.mem
      exact hnot (haccepted _ hf)

/-- The same entity with other bodies of its methods. -/
def rebodied (body : Source.Method → List String) (e : Source.Entity) : Source.Entity :=
  { e with methods := e.methods.map fun m => { m with body := body m } }

theorem defect?_rebodied (body : Source.Method → List String) :
    (rebodied body e).defect? = e.defect? := by
  simp only [Source.Entity.defect?, rebodied, List.any_map]
  rfl

theorem refused_rebodied_iff (body : Source.Method → List String) (failure : Failure) :
    Refused catalog (rebodied body e) failure ↔ Refused catalog e failure := by
  constructor
  · rintro (hd | ⟨hvalid, hfirst, hcause⟩ | ⟨hvalid, hresolves, hfirst, hlacks⟩)
    · exact .invalid (defect?_rebodied body ▸ hd)
    · exact .unresolved (defect?_rebodied body ▸ hvalid) hfirst hcause
    · exact .incomplete (defect?_rebodied body ▸ hvalid) hresolves hfirst hlacks
  · rintro (hd | ⟨hvalid, hfirst, hcause⟩ | ⟨hvalid, hresolves, hfirst, hlacks⟩)
    · exact .invalid ((defect?_rebodied body).trans hd)
    · exact .unresolved ((defect?_rebodied body).trans hvalid) hfirst hcause
    · exact .incomplete ((defect?_rebodied body).trans hvalid) hresolves hfirst hlacks

end Entity

/-- **An entity has a specification exactly when it is acceptable as it stands and each of its
fields is accepted**, and otherwise it fails for the first of the reasons that it has. The bodies of
its methods are none. -/
theorem specify_refused_iff (catalog : Catalog) (tags : Pattern.Tags) (e : Source.Entity) :
    (∀ failure, specify catalog tags e = .error failure ↔ Refused catalog e failure) ∧
      ((∃ s, specify catalog tags e = .ok s) ↔
        e.defect? = none ∧ ∀ f ∈ e.fields, Accepted catalog e f) ∧
      ∀ body failure, specify catalog tags (rebodied body e) = .error failure ↔
        specify catalog tags e = .error failure := by
  refine ⟨specify_eq_error_iff_refused, ?_, fun body failure => ?_⟩
  · rw [← not_refused_iff]
    have herror : (∀ failure, ¬ Refused catalog e failure) ↔
        ∀ failure, specify catalog tags e ≠ .error failure :=
      forall_congr' fun failure => not_congr (specify_eq_error_iff_refused failure).symm
    rw [herror]
    cases specify catalog tags e <;> simp
  · rw [specify_eq_error_iff_refused, specify_eq_error_iff_refused, refused_rebodied_iff]

/-- A text that names an enumeration needs values, though nothing is asked of it as it stands. -/
example : let note : Source.Entity := {
      name := "Note"
      fields := [.plain "title" (.known .text), .plain "kind" (.unresolved "Enumerated")]
      format := .python }
    note.defect? = none ∧
      specify .empty .empty note = .error (.schema "Note" (.valuelessEnumeration "kind")) := by
  exact ⟨by decide +kernel, by rfl⟩

end Mapping

end Concord
