/-
Decorations of types from the source to the specified field. A reader knows some of the wrappers
that a strategy for types lets through, and it knows types by names that the strategy does not
know. So a decoration that the reader takes off changes nothing, and one that it leaves to the
strategy changes nothing as long as the strategy knows the type by itself
(`decorations_transparent`).
-/
import Concord.Mapping.Entity
import Concord.Proofs.Source.Braced
import Concord.Proofs.Source.Hint
import Concord.Proofs.Source.Pointer

namespace Concord.Mapping

open Text Spec Code Typing

/-! ## Specified fields -/

/-- The specified field of a field, if its type can be resolved. -/
def specified? (wrappers : Wrappers) (catalog : Catalog) (owner : String) (f : Source.Field) :
    Option Field :=
  (resolveField wrappers catalog owner f).toOption.map (fieldOf f)

theorem specified?_unspelled (wrappers : Wrappers) (catalog : Catalog) (owner : String)
    (f : Source.Field) :
    specified? wrappers catalog owner f.unspelled = specified? wrappers catalog owner f := by
  have hresolve : resolveField wrappers catalog owner f.unspelled =
      resolveField wrappers catalog owner f := by
    unfold resolveField Source.Field.unspelled
    dsimp only
  have hfield : fieldOf f.unspelled = fieldOf f := rfl
  rw [specified?, specified?, hresolve, hfield]

variable (constants : KeyMap (List String)) (catalog : Catalog) (owner name : String)

/-- The specified field that a type in braces gives. -/
def braced? (type : Text) : Option Field :=
  specified? (.ofFormat .rust) catalog owner (Source.Braced.fieldOfType constants name type)

/-- The specified field that a type hint gives. -/
def hinted? (hint : Text) : Option Field :=
  specified? (.ofFormat .python) catalog owner (Source.Indented.fieldOfHint constants name hint)

theorem braced?_of_unspelled {t u : Text}
    (h : (Source.Braced.fieldOfType constants name t).unspelled =
      (Source.Braced.fieldOfType constants name u).unspelled) :
    braced? constants catalog owner name t = braced? constants catalog owner name u := by
  rw [braced?, braced?, ← specified?_unspelled, h, specified?_unspelled]

/-! ## Resolving what is peeled -/

theorem resolveType?_ofList (wrappers : Wrappers) (t : Text) :
    resolveType? wrappers (String.ofList t) catalog owner =
      resolvePeeled? catalog owner (wrappers.peel t) := by
  rw [resolveType?, String.toList_ofList]

/-- What is resolved inside a layer that may allow for no value. -/
def Resolved.within (r : Resolved) (nullable : Bool) : Resolved :=
  { r with nullable := nullable || r.nullable }

theorem resolvePeeled?_within (p : Peeled) (nullable : Bool) :
    resolvePeeled? catalog owner (p.within nullable) =
      (resolvePeeled? catalog owner p).map (Resolved.within · nullable) := by
  unfold resolvePeeled? Peeled.within
  dsimp only
  split
  · rfl
  split
  · rfl
  · rw [Option.map_map]
    rfl

/-- The specified field that says nothing more than its type. -/
def plainField (r : Resolved) : Field := fieldOf (.plain name (.known .text)) r

/-- A field of a type alone is resolved by the type, and may have no value if a layer allows for
none. -/
theorem specified?_plain (wrappers : Wrappers) (type : Source.TypeTag) (nullable : Bool)
    (spelling : String) :
    specified? wrappers catalog owner
        { Source.Field.plain name type with spelling, required := !nullable } =
      (resolveField wrappers catalog owner (.plain name type)).toOption.map
        fun r => plainField name (r.within nullable) := by
  have hresolve : resolveField wrappers catalog owner
      { Source.Field.plain name type with spelling, required := !nullable } =
        resolveField wrappers catalog owner (.plain name type) := by
    unfold resolveField Source.Field.plain
    dsimp only
  have hfield : fieldOf { Source.Field.plain name type with spelling, required := !nullable } =
      fun r => plainField name (r.within nullable) := by
    funext r
    simp [fieldOf, plainField, Resolved.within, Source.Field.plain, Bool.not_or]
  rw [specified?, hresolve, hfield]

theorem resolveField_unresolved (wrappers : Wrappers) (t : Text) :
    (resolveField wrappers catalog owner (.plain name (.unresolved (String.ofList t)))).toOption =
      resolvePeeled? catalog owner (wrappers.peel t) := by
  rw [resolveField, Source.Field.plain]
  dsimp only
  rw [resolveType?_ofList]
  cases resolvePeeled? catalog owner (wrappers.peel t) <;> rfl

theorem specified?_unresolved (wrappers : Wrappers) (t : Text) :
    specified? wrappers catalog owner (.plain name (.unresolved (String.ofList t))) =
      (resolvePeeled? catalog owner (wrappers.peel t)).map (plainField name) := by
  rw [specified?, resolveField_unresolved]
  rfl

theorem resolveField_known (wrappers : Wrappers) {b : BaseType} (h : b ≠ .reference) :
    (resolveField wrappers catalog owner (.plain name (.known b))).toOption =
      some ⟨b, none, false⟩ := by
  cases b with
  | reference => exact absurd rfl h
  | _ => rfl

theorem specified?_known (wrappers : Wrappers) {b : BaseType} (h : b ≠ .reference) :
    specified? wrappers catalog owner (.plain name (.known b)) =
      some (plainField name ⟨b, none, false⟩) := by
  rw [specified?, resolveField_known catalog owner name wrappers h]
  rfl

/-- A name is resolved to the base type of that name if no entity has it. -/
theorem resolvePeeled?_base {t : Text} {b : BaseType}
    (hbase : BaseType.ofName? (String.ofList (lower t)) = some b)
    (hentity : catalog.resolveFor? (String.ofList t) owner = none) :
    resolvePeeled? catalog owner ⟨t, false, false⟩ = some ⟨b, none, false⟩ := by
  simp [resolvePeeled?, hentity, hbase]

/-! ## Types in braces -/

/-- A name that the strategy knows by itself as it is known to the reader and the strategy
together: one that the reader leaves, or a base type under its own name. -/
inductive NameAlike : Text → Prop
  | left {t : Text} (hconstant : constants.get? (String.ofList t) = none)
    (hword : Source.Braced.typeWord? t = none) : NameAlike t
  | base {t : Text} {b : BaseType} (hconstant : constants.get? (String.ofList t) = none)
    (hword : Source.Braced.typeWord? t = some b)
    (hbase : BaseType.ofName? (String.ofList (lower t)) = some b)
    (hentity : catalog.resolveFor? (String.ofList t) owner = none) : NameAlike t

theorem braced?_alike {t base : Text} (h : Source.Braced.HasName t base)
    (hknown : NameAlike constants catalog owner base) :
    braced? constants catalog owner name t =
      (resolvePeeled? catalog owner ⟨base, false, false⟩).map (plainField name) := by
  rw [braced?, ← specified?_unspelled, h.unspelled_fieldOfType, specified?_unspelled,
    Source.Braced.fieldOfBase, h.baseName_eq]
  cases hknown with
  | left hconstant hword =>
    rw [hconstant, hword, ← peel_name (.ofFormat .rust) h.name]
    exact specified?_unresolved catalog owner name _ base
  | base hconstant hword hbase hentity =>
    rw [hconstant, hword, resolvePeeled?_base catalog owner hbase hentity]
    exact specified?_known catalog owner name _ (Source.Braced.plain_of_typeWord? hword).1

/-- Behind a lifetime the strategy alone resolves a name. -/
theorem braced?_foreign {a t base : Text} (h : Source.Braced.HasName t base)
    (ha : IsName a) (hstatic : startsWith a "static".toList = false)
    (hconstant : constants.get? (String.ofList ('\'' :: (a ++ ' ' :: base))) = none) :
    braced? constants catalog owner name (Source.Braced.lifetimed a t) =
      (resolvePeeled? catalog owner ⟨base, false, false⟩).map (plainField name) := by
  rw [braced?, ← specified?_unspelled,
    h.unspelled_fieldOfType_foreign constants name ha hstatic hconstant,
    specified?_unspelled, specified?_unresolved, peel_lifetime _ ha h.name]

/-! ## Type hints -/

/-- A type that the strategy knows by itself as it is known to the reader and the strategy
together: one that the reader leaves as it is, a collection, or a base type under its own name. -/
inductive KnownAlike : Text → Prop
  | left {t : Text} (hcollection : Source.Indented.isCollection t = false)
    (hconstant : constants.get? (String.ofList t) = none)
    (htype : Source.Indented.typeOf t = .unresolved (String.ofList t)) : KnownAlike t
  | collection {outer : String}
    (houter : outer ∈ ["List", "list", "Set", "set", "Sequence", "Tuple", "tuple"]) {inner : Text}
    (hclosed : Closed inner) (hne : inner ≠ []) : KnownAlike (squared outer.toList inner)
  | base {t : Text} {b : BaseType} (hname : IsName t)
    (hconstant : constants.get? (String.ofList t) = none)
    (htype : Source.Indented.typeOf t = .known b)
    (hbase : BaseType.ofName? (String.ofList (lower t)) = some b) (hplain : b ≠ .reference)
    (hentity : catalog.resolveFor? (String.ofList t) owner = none) : KnownAlike t

theorem isCollection_squared {outer : Text} (h : IsName outer) (inner : Text) :
    Source.Indented.isCollection (squared outer inner) =
      ["List", "list", "Set", "set", "Sequence", "Tuple", "tuple"].any (·.toList == outer) := by
  rw [Source.Indented.isCollection, Source.Indented.argumentOf?_squared h]
  split
  · rename_i hany
    rw [hany]
    rfl
  · rename_i hnone
    rw [Bool.eq_false_iff.2 hnone]
    rfl

theorem isCollection_name {t : Text} (h : IsName t) : Source.Indented.isCollection t = false := by
  rw [Source.Indented.isCollection, Source.Indented.argumentOf?,
    cut?_char_none (h.not_mem (by decide))]
  rfl

/-- What is known alike means the same to the strategy alone. -/
theorem KnownAlike.specified? {t : Text} (h : KnownAlike constants catalog owner t)
    (nullable : Bool) (spelling : String) :
    Mapping.specified? .python catalog owner
        { Source.Indented.fieldOfType constants name t with spelling, required := !nullable } =
      (resolvePeeled? catalog owner ((Wrappers.python.peel t).within nullable)).map
        (plainField name) := by
  rw [resolvePeeled?_within, Option.map_map]
  cases h with
  | left hcollection hconstant htype =>
    have hfield : Source.Indented.fieldOfType constants name t =
        { Source.Field.plain name (.unresolved (String.ofList t)) with
          spelling := String.ofList t } := by
      rw [Source.Indented.fieldOfType, hcollection, hconstant, htype]
      rfl
    rw [hfield, ← resolveField_unresolved catalog owner name]
    exact specified?_plain catalog owner name .python _ nullable spelling
  | @collection outer houter inner hclosed hne =>
    have hnames : ∀ o ∈ ["List", "list", "Set", "set", "Sequence", "Tuple", "tuple"],
        IsName o.toList ∧ Wrappers.python.collections.contains o.toList = true := by decide
    obtain ⟨hname, hcontains⟩ := hnames outer houter
    have hstep := step_squared .python hname hclosed hne
    rw [if_pos hcontains] at hstep
    have hcollection : Source.Indented.isCollection (squared outer.toList inner) = true := by
      rw [isCollection_squared hname, List.any_eq_true]
      exact ⟨outer, houter, beq_self_eq_true _⟩
    have hfield : Source.Indented.fieldOfType constants name (squared outer.toList inner) =
        { Source.Field.plain name (.known .collection) with
          spelling := String.ofList (squared outer.toList inner) } := by
      rw [Source.Indented.fieldOfType, hcollection]
      rfl
    rw [hfield, peel_of_done (hname.unmarked_squared inner).trimmed hstep]
    exact specified?_plain catalog owner name .python _ nullable spelling
  | @base _ b hname hconstant htype hbase hplain hentity =>
    have hfield : Source.Indented.fieldOfType constants name t =
        { Source.Field.plain name (.known b) with spelling := String.ofList t } := by
      rw [Source.Indented.fieldOfType, isCollection_name hname, hconstant, htype]
      rfl
    rw [hfield, peel_name .python hname, resolvePeeled?_base catalog owner hbase hentity,
      ← resolveField_known catalog owner name .python hplain]
    exact specified?_plain catalog owner name .python _ nullable spelling

/-- A hint in layers around such a type means the same to the strategy alone. -/
theorem hinted?_layered {hint type : Text} {nullable : Bool}
    (hlayered : Source.Indented.Layered hint type nullable)
    (hknown : KnownAlike constants catalog owner type) :
    hinted? constants catalog owner name hint =
      (resolvePeeled? catalog owner (Wrappers.python.peel hint)).map (plainField name) := by
  rw [hlayered.peel_eq, ← hknown.specified? constants catalog owner name nullable (String.ofList hint),
    hinted?, Source.Indented.fieldOfHint, hlayered.unwrap_eq]
  rfl

/-- The wrappers of hints that a reader leaves to the strategy. -/
def leftWrappers : List String := ["Final", "ClassVar", "Annotated"]

/-- A reader knows none of them, and the strategy lets them through. -/
theorem leftWrappers_left : ∀ w ∈ leftWrappers, IsName w.toList ∧
    (["Mapped", "sqlalchemy.orm.Mapped", "Optional", "typing.Optional"].all
      (·.toList != w.toList)) = true ∧
    (["List", "list", "Set", "set", "Sequence", "Tuple", "tuple"].any (·.toList == w.toList)) =
      false ∧
    Source.Indented.typeWords.find? (fun x => x.2.any (·.toList ==
      lower (Source.Indented.lastPart w.toList))) = none ∧
    Wrappers.python.collections.contains w.toList = false ∧
    Wrappers.python.nullable.contains w.toList = false ∧
    (Wrappers.python.nullable ++ Wrappers.python.transparent).contains w.toList = true := by decide

theorem hinted?_leftWrapper {w : String} (hw : w ∈ leftWrappers) {inner hint : Text}
    (hclosed : Closed inner) (hne : inner ≠ []) (hfirst : firstArgument inner = hint)
    (htrim : trim hint = hint)
    (hconstant : constants.get? (String.ofList (squared w.toList inner)) = none) :
    hinted? constants catalog owner name (squared w.toList inner) =
      (resolvePeeled? catalog owner (Wrappers.python.peel hint)).map (plainField name) := by
  obtain ⟨hname, hother, hlist, hword, hcollections, hnullable, hthrough⟩ :=
    leftWrappers_left w hw
  have hbefore : Source.Indented.before '[' (squared w.toList inner) = w.toList := by
    rw [Source.Indented.before, squared, takeWhile_append_of_not_mem (hname.not_mem (by decide)),
      List.takeWhile_cons_of_neg (by simp), List.append_nil]
  have htype : Source.Indented.typeOf (squared w.toList inner) =
      .unresolved (String.ofList (squared w.toList inner)) := by
    rw [Source.Indented.typeOf, hbefore]
    dsimp only
    rw [hword]
  have hpeel := peel_squared hname hclosed hne hfirst htrim hcollections hthrough
  rw [hinted?_layered constants catalog owner name
      (.type (.squared hname hclosed) (Source.Indented.unwrapOnce?_squared hname hother inner))
      (.left (by rw [isCollection_squared hname, hlist]) hconstant htype),
    hpeel, hnullable]
  simp [Peeled.within]

/-! ## Transparency -/

/-- What decorations do to types in braces. -/
structure BracedTransparent : Prop where
  /-- A reference is as what it points at. -/
  reference (t : Text) (ht : ∀ c ∈ t.head?, isBlank c = false) :
    braced? constants catalog owner name ('&' :: t) = braced? constants catalog owner name t
  /-- So is one with a lifetime, if the type has a path, -/
  lifetimePath (a t : Text) (ha : IsName a) (ht : Unmarked t) (hpath : Source.Braced.HasPath t) :
    braced? constants catalog owner name (Source.Braced.lifetimed a t) =
      braced? constants catalog owner name t
  /-- if the lifetime is the one that the reader knows, -/
  lifetimeStatic (t : Text) (ht : Unmarked t) (hne : t ≠ []) :
    braced? constants catalog owner name (Source.Braced.lifetimed "static".toList t) =
      braced? constants catalog owner name t
  /-- or if the type has one name, which is known alike. -/
  lifetimeName (a t base : Text) (ha : IsName a) (hstatic : startsWith a "static".toList = false)
    (ht : Source.Braced.HasName t base) (hknown : NameAlike constants catalog owner base) :
    braced? constants catalog owner name (Source.Braced.lifetimed a t) =
      braced? constants catalog owner name t
  /-- The pointers that the reader knows are as what they point at. -/
  pointer (w : String) (hw : w ∈ ["Box", "Rc", "Arc"]) (t : Text) :
    braced? constants catalog owner name (Source.Braced.angled w.toList t) =
      braced? constants catalog owner name t
  /-- The others are as a type of their own name, whatever they point at. -/
  container (w : String) (hw : w ∈ ["Cow", "RefCell", "Cell", "Mutex", "RwLock"]) (t : Text) :
    braced? constants catalog owner name (Source.Braced.angled w.toList t) =
      braced? constants catalog owner name w.toList

/-- What decorations do to type hints. -/
structure HintedTransparent : Prop where
  /-- The wrapper that the reader knows is as what it wraps. -/
  mapped (t : Text) :
    hinted? constants catalog owner name (squared "Mapped".toList t) =
      hinted? constants catalog owner name t
  /-- The others are so if they wrap layers around a type that is known alike. -/
  wrapped (w : String) (hw : w ∈ ["Final", "ClassVar"]) (hint type : Text) (nullable : Bool)
    (hlayered : Source.Indented.Layered hint type nullable)
    (hknown : KnownAlike constants catalog owner type) :
    hinted? constants catalog owner name (squared w.toList hint) =
      hinted? constants catalog owner name hint
  /-- Further arguments change nothing. -/
  annotated (hint type more : Text) (nullable : Bool)
    (hlayered : Source.Indented.Layered hint type nullable)
    (hknown : KnownAlike constants catalog owner type) (hangle : '<' ∉ hint) (hmore : Closed more) :
    hinted? constants catalog owner name
        (squared "Annotated".toList (hint ++ ", ".toList ++ more)) =
      hinted? constants catalog owner name hint

theorem bracedTransparent
    (hquote : ∀ t : Text, '\'' ∈ t → constants.get? (String.ofList t) = none) :
    BracedTransparent constants catalog owner name where
  reference t ht := braced?_of_unspelled constants catalog owner name
    (Source.Braced.unspelled_fieldOfType_reference constants name ht)
  lifetimePath a t ha ht hpath := braced?_of_unspelled constants catalog owner name
    (Source.Braced.unspelled_fieldOfType_path constants name ht hpath ha)
  lifetimeStatic t ht hne := braced?_of_unspelled constants catalog owner name
    (Source.Braced.unspelled_fieldOfType_static constants name ht hne)
  lifetimeName a t base ha hstatic ht hknown := by
    rw [braced?_alike constants catalog owner name ht hknown,
      braced?_foreign constants catalog owner name ht ha hstatic (hquote _ List.mem_cons_self)]
  pointer w hw t := braced?_of_unspelled constants catalog owner name
    (Source.Braced.unspelled_fieldOfType_pointer constants name hw t)
  container w hw t := by
    have hnames : ∀ w ∈ ["Cow", "RefCell", "Cell", "Mutex", "RwLock"], IsName w.toList ∧
        ∀ names ∈ Source.Braced.lookedInto, ∀ n ∈ names, n.toList ≠ w.toList := by decide
    obtain ⟨hname, hnone⟩ := hnames w hw
    exact braced?_of_unspelled constants catalog owner name
      (Source.Braced.unspelled_fieldOfType_angled constants name hname hnone t)

theorem hintedTransparent
    (hbracket : ∀ outer inner, constants.get? (String.ofList (squared outer inner)) = none) :
    HintedTransparent constants catalog owner name where
  mapped t := by
    rw [hinted?, hinted?, ← specified?_unspelled, ← specified?_unspelled _ _ _
      (Source.Indented.fieldOfHint constants name t)]
    simp only [Source.Indented.fieldOfHint, Source.Indented.unwrap_mapped, Source.Field.unspelled]
  wrapped w hw hint type nullable hlayered hknown := by
    have htidy := hlayered.tidy
    have hleft : w ∈ leftWrappers := List.mem_append_left ["Annotated"] hw
    rw [hinted?_leftWrapper constants catalog owner name hleft htidy.closed htidy.ne_nil
      (firstArgument_single htidy.single htidy.closed) htidy.trimmed (hbracket _ _),
      hinted?_layered constants catalog owner name hlayered hknown]
  annotated hint type more nullable hlayered hknown hangle hmore := by
    have htidy := hlayered.tidy
    have hclosed : Closed (hint ++ ", ".toList ++ more) :=
      (htidy.closed.append (by decide) (.inr (by decide))).append hmore
        (.inl (by rw [List.getLast?_append_of_ne_nil _ (by decide)]; decide))
    have hfirst : firstArgument (hint ++ ", ".toList ++ more) = hint := by
      have hpair := firstArgument_pair htidy.single htidy.closed hangle (' ' :: more)
      rwa [List.append_assoc]
    rw [hinted?_leftWrapper constants catalog owner name (by decide) hclosed (by simp) hfirst
      htidy.trimmed (hbracket _ _), hinted?_layered constants catalog owner name hlayered hknown]

/-- **Decorations are transparent from the source to the specified field as far as the reader takes
them off, or leaves a type that the strategy knows by itself.** The names of enumerations hold no
quotes and brackets. -/
theorem decorations_transparent
    (hconstants : ∀ key, constants.get? key ≠ none → '\'' ∉ key.toList ∧ '[' ∉ key.toList) :
    BracedTransparent constants catalog owner name ∧ HintedTransparent constants catalog owner name := by
  have hquote : ∀ t : Text, '\'' ∈ t → constants.get? (String.ofList t) = none := by
    intro t ht
    by_contra hsome
    exact (hconstants _ hsome).1 (by rwa [String.toList_ofList])
  have hbracket : ∀ outer inner, constants.get? (String.ofList (squared outer inner)) = none := by
    intro outer inner
    by_contra hsome
    exact (hconstants _ hsome).2 (by rw [String.toList_ofList]; simp [squared])
  exact ⟨bracedTransparent constants catalog owner name hquote,
    hintedTransparent constants catalog owner name hbracket⟩

/-- The specified field that points at a company, or that may. -/
def companyField (nullable : Bool) : Field :=
  plainField "company" ⟨.reference, some "Company", nullable⟩

theorem decorations_transparent_company :
    braced? .empty (.ofNames ["Company"]) "Lead" "company" "&'a Company".toList =
        some (companyField false) ∧
      hinted? .empty (.ofNames ["Company"]) "Lead" "company"
          "Annotated[Mapped[Company | None], index]".toList = some (companyField true) := by
  obtain ⟨hbraced, hhinted⟩ := decorations_transparent .empty (.ofNames ["Company"]) "Lead" "company"
    fun key hkey => absurd rfl hkey
  have hcompany : Source.Indented.Layered "Company".toList "Company".toList false :=
    .type ⟨by decide, by decide, by decide, by decide⟩ (by decide)
  have hlayered := (hcompany.orNone (by decide) (by decide) (by decide)).mapped
  constructor
  · have htext : "&'a Company".toList = Source.Braced.lifetimed "a".toList "Company".toList := by decide
    have hlifetime := hbraced.lifetimeName "a".toList "Company".toList "Company".toList (by decide)
      (by decide) ⟨by decide, .inl rfl, by decide⟩ (.left (by decide) (by decide))
    rw [htext]
    exact hlifetime.trans (by decide +kernel)
  · have htext : "Annotated[Mapped[Company | None], index]".toList = squared "Annotated".toList
        (squared "Mapped".toList (union "Company".toList "None".toList) ++ ", ".toList ++
          "index".toList) := by decide
    have hannotated := hhinted.annotated _ _ "index".toList _ hlayered
      (.left (by decide) (by decide) (by decide)) (by decide) (by decide)
    rw [htext]
    exact hannotated.trans (by decide +kernel)

/-- A text that the reader knows and the strategy does not, behind a lifetime; a number in a
container that the reader does not know; a number in a wrapper that it leaves. None of them gives
a field, though each type alone does. -/
theorem decorations_lost :
    ["str", "&'a str", "i32", "RefCell<i32>"].map (fun t =>
        (braced? .empty .empty "Lead" "size" t.toList).isSome) = [true, false, true, false] ∧
      ["int", "Final[int]", "ClassVar[int]", "Annotated[int, index]"].map (fun t =>
        (hinted? .empty .empty "Lead" "size" t.toList).isSome) = [true, false, false, false] := by
  decide +kernel

end Concord.Mapping
