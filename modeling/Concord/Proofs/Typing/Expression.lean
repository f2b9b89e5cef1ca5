/-
Type expressions in layers, and what is left of them when they are peeled. Around a path of names
stand wrappers with their arguments in the brackets of the format and unions with a member for no
value, in any order (`Expression`). `peel_eq_meaning_iff`: peeling sees through every layer outside
collections and stops at the first collection, unless a text that it comes to begins with the
word for a mutable reference.
-/
import Concord.Proofs.Typing.Peel

namespace Concord.Typing

open Text Code

/-! ## Paths of names -/

/-- A character of a name in a path. -/
def isSegmentChar (c : Char) : Bool := isBareChar c && c != '.' && c != ':'

/-- A name in a path. -/
structure IsSegment (t : Text) : Prop where
  ne_nil : t ≠ []
  chars : ∀ c ∈ t, isSegmentChar c = true

instance (t : Text) : Decidable (IsSegment t) :=
  decidable_of_iff (t ≠ [] ∧ ∀ c ∈ t, isSegmentChar c = true)
    ⟨fun h => ⟨h.1, h.2⟩, fun h => ⟨h.ne_nil, h.chars⟩⟩

theorem isBareChar_of_isSegmentChar {c : Char} (h : isSegmentChar c = true) : isBareChar c = true := by
  simp only [isSegmentChar, Bool.and_eq_true] at h
  exact h.1.1

namespace IsSegment

variable {t : Text}

theorem not_mem (h : IsSegment t) {c : Char} (hc : isSegmentChar c = false) : c ∉ t := by
  intro hmem
  rw [h.chars c hmem] at hc
  cases hc

theorem bare (h : IsSegment t) : IsBare t :=
  ⟨h.ne_nil, fun c hc => isBareChar_of_isSegmentChar (h.chars c hc)⟩

end IsSegment

/-- What parts the names of a path. -/
inductive Separator where
  | dot
  | colons
deriving DecidableEq, Repr

namespace Separator

def text : Separator → Text
  | dot => ['.']
  | colons => [':', ':']

theorem bare (s : Separator) : IsBare s.text := by cases s <;> decide

end Separator

/-- The names before the last one of a path. -/
def qualified (qualifiers : List (Text × Separator)) : Text :=
  qualifiers.flatMap fun q => q.1 ++ q.2.text

theorem qualified_cons (q : Text × Separator) (qs : List (Text × Separator)) :
    qualified (q :: qs) = (q.1 ++ q.2.text) ++ qualified qs := List.flatMap_cons

/-- What is before the last name ends with the separators that its last segment is searched by. -/
theorem exists_qualified {qs : List (Text × Separator)} (h : ∀ q ∈ qs, IsSegment q.1) :
    ∃ before after, qualified qs = before ++ after ∧
      (before = [] ∨ ∃ x, before = x ++ [':', ':']) ∧
      ':' ∉ after ∧ (after = [] ∨ ∃ y, after = y ++ ['.']) := by
  induction qs with
  | nil => exact ⟨[], [], rfl, .inl rfl, by simp, .inl rfl⟩
  | cons q qs ih =>
    obtain ⟨t, s⟩ := q
    obtain ⟨before, after, hqs, hbefore, hcolon, hafter⟩ := ih fun q hq => h q (.tail _ hq)
    have ht : ':' ∉ t := (h _ List.mem_cons_self).not_mem (by decide)
    rw [qualified_cons, hqs]
    rcases hbefore with rfl | ⟨x, rfl⟩
    · cases s with
      | colons => exact ⟨t ++ [':', ':'], after, rfl, .inr ⟨t, rfl⟩, hcolon, hafter⟩
      | dot =>
        refine ⟨[], t ++ ['.'] ++ after, rfl, .inl rfl, by simp [ht, hcolon], .inr ?_⟩
        rcases hafter with rfl | ⟨y, rfl⟩
        · exact ⟨t, List.append_nil _⟩
        · exact ⟨t ++ ['.'] ++ y, by simp⟩
    · exact ⟨t ++ s.text ++ (x ++ [':', ':']), after, by simp, .inr ⟨t ++ s.text ++ x, by simp⟩,
        hcolon, hafter⟩

/-- A name with the names that qualify it. -/
structure Path where
  qualifiers : List (Text × Separator)
  last : Text
  qualifying : ∀ q ∈ qualifiers, IsSegment q.1
  naming : IsSegment last

namespace Path

def text (p : Path) : Text := qualified p.qualifiers ++ p.last

theorem bare (p : Path) : IsBare p.text where
  ne_nil := by simp [text, p.naming.ne_nil]
  chars c hc := by
    rcases List.mem_append.1 hc with hc | hc
    · obtain ⟨q, hq, hc⟩ := List.mem_flatMap.1 hc
      rcases List.mem_append.1 hc with hc | hc
      · exact (p.qualifying q hq).bare.chars c hc
      · exact q.2.bare.chars c hc
    · exact p.naming.bare.chars c hc

theorem lastSegment_text (p : Path) : lastSegment p.text = p.last := by
  obtain ⟨before, after, hqualified, hbefore, hcolon, hafter⟩ := exists_qualified p.qualifying
  have hrest : ':' ∉ after ++ p.last := by simp [hcolon, p.naming.not_mem (c := ':') (by decide)]
  have htext : p.text = before ++ (after ++ p.last) := by rw [text, hqualified, List.append_assoc]
  have hcolons : ((cutLast? "::".toList p.text).map Prod.snd).getD p.text = after ++ p.last := by
    rcases hbefore with rfl | ⟨x, rfl⟩
    · rw [htext, List.nil_append, cutLast?_of_not_mem (c := ':') (by decide) hrest]
      rfl
    · have hcut : cutLast? "::".toList p.text = some (x, after ++ p.last) := by
        rw [htext, List.append_assoc]
        exact cutLast?_append_of_not_mem (by decide) hrest x
      rw [hcut]
      rfl
  have hdot : '.' ∉ p.last := p.naming.not_mem (by decide)
  unfold lastSegment
  simp only [p.bare.trim_self, hcolons]
  rcases hafter with rfl | ⟨y, rfl⟩
  · rw [List.nil_append, cutLast?_of_not_mem (c := '.') (by decide) hdot]
    rfl
  · have hcut : cutLast? ['.'] (y ++ ['.'] ++ p.last) = some (y, p.last) := by
      rw [List.append_assoc]
      exact cutLast?_append_of_not_mem (by decide) hdot y
    rw [hcut]
    rfl

end Path

/-! ## Members for no value -/

variable {f : Source.Format}

theorem segment_of_absent (f : Source.Format) :
    ∀ m ∈ (Wrappers.ofFormat f).absent, IsSegment m ∧ m ≠ "mut".toList := by
  cases f <;> decide

/-- A member for no value of a union, with the blanks on both sides of its bar. -/
structure Absence (f : Source.Format) where
  marker : Text
  known : marker ∈ (Wrappers.ofFormat f).absent
  before : Text
  after : Text
  blank : ∀ c ∈ before ++ after, isBlank c = true

namespace Absence

variable (a : Absence f)

def bar : Text := a.before ++ '|' :: a.after

theorem segment : IsSegment a.marker := (segment_of_absent f _ a.known).1

theorem blank_before : ∀ c ∈ a.before, isBlank c = true :=
  fun c hc => a.blank c (List.mem_append_left _ hc)

theorem blank_after : ∀ c ∈ a.after, isBlank c = true :=
  fun c hc => a.blank c (List.mem_append_right _ hc)

theorem mem_bar {c : Char} (h : c ∈ a.bar) : isBlank c = true ∨ c = '|' := by
  simp only [bar, List.mem_append, List.mem_cons] at h
  rcases h with h | rfl | h
  · exact .inl (a.blank_before c h)
  · exact .inr rfl
  · exact .inl (a.blank_after c h)

theorem not_mem_bar {c : Char} (hblank : isBlank c = false) (hne : c ≠ '|') : c ∉ a.bar := by
  intro hmem
  rcases a.mem_bar hmem with h | h
  · rw [h] at hblank
    cases hblank
  · exact hne h

theorem head_bar (u : Text) : ∀ c ∈ (a.bar ++ u).head?, c ∈ a.bar := by
  intro c hc
  rw [List.head?_append_of_ne_nil _ (by simp [bar])] at hc
  exact List.mem_of_head? hc

theorem head_ne_quote (u : Text) : (a.bar ++ u).head? ≠ some '\'' :=
  fun hhead => a.not_mem_bar (by decide) (by decide) (a.head_bar u _ hhead)

theorem closed_bar : Closed a.bar :=
  (closed_of_blank a.blank_before).append
    (.append (a := ['|']) (by decide) (closed_of_blank a.blank_after) (.inl (by decide)))
    (.inr (by simp))

theorem splitTop_marker : splitTop '|' a.marker = [a.marker] :=
  splitTop_single a.segment.bare.topAll_bar a.segment.bare.trim_self a.segment.ne_nil

theorem splitTop_bar {t : Text} (ht : Closed t) (u : Text) :
    splitTop '|' (t ++ (a.bar ++ u)) = splitTop '|' t ++ splitTop '|' u := by
  have htext : t ++ (a.bar ++ u) = t ++ (a.before ++ '|' :: (a.after ++ u)) := by simp [bar]
  rw [htext, splitTop_append_gap (by decide) (by decide) (by decide) ht a.blank_before a.blank_after]

end Absence

/-- Members for no value before another member. -/
def leading (as : List (Absence f)) : Text := as.flatMap fun a => a.marker ++ a.bar

/-- Members for no value after another member. -/
def trailing (as : List (Absence f)) : Text := as.flatMap fun a => a.bar ++ a.marker

theorem leading_cons (a : Absence f) (as : List (Absence f)) :
    leading (a :: as) = a.marker ++ a.bar ++ leading as := List.flatMap_cons

theorem trailing_cons (a : Absence f) (as : List (Absence f)) :
    trailing (a :: as) = a.bar ++ a.marker ++ trailing as := List.flatMap_cons

theorem trailing_append (as bs : List (Absence f)) :
    trailing (as ++ bs) = trailing as ++ trailing bs := List.flatMap_append

theorem splitTop_leading (as : List (Absence f)) (t : Text) :
    splitTop '|' (leading as ++ t) = as.map Absence.marker ++ splitTop '|' t := by
  induction as with
  | nil => rfl
  | cons a as ih =>
    rw [leading_cons, List.append_assoc, List.append_assoc,
      a.splitTop_bar (closed_of_plain a.segment.bare.plain), ih, a.splitTop_marker]
    rfl

theorem splitTop_trailing (as : List (Absence f)) {t : Text} (ht : Closed t) :
    splitTop '|' (t ++ trailing as) = splitTop '|' t ++ as.map Absence.marker := by
  induction as generalizing t with
  | nil => simp [trailing]
  | cons a as ih =>
    rw [trailing_cons, List.append_assoc, a.splitTop_bar ht,
      ih (closed_of_plain a.segment.bare.plain), a.splitTop_marker]
    rfl

theorem not_mem_trailing (as : List (Absence f)) {c : Char} (hblank : isBlank c = false)
    (hne : c ≠ '|') (hc : isSegmentChar c = false) : c ∉ trailing as := by
  intro hmem
  obtain ⟨a, -, ha⟩ := List.mem_flatMap.1 hmem
  rcases List.mem_append.1 ha with ha | ha
  · exact a.not_mem_bar hblank hne ha
  · exact a.segment.not_mem hc ha

/-! ## Layers -/

/-- The brackets that the types of a format have their arguments in. -/
def Brackets.ofFormat : Source.Format → Brackets
  | .python | .pytest => .square
  | .rust | .typescript | .java | .sql | .ir | .unknown => .angle

/-- The names of all wrappers. -/
def Wrappers.names (w : Wrappers) : List Text := w.collections ++ w.nullable ++ w.transparent

/-- What may stand around a type. -/
inductive Layer (f : Source.Format) where
  | wrap (path : Path) (known : path.last ∈ (Wrappers.ofFormat f).names)
  | orAbsent (a : Absence f)
  | absentOr (a : Absence f)

namespace Layer

def around : Layer f → Text → Text
  | wrap path _, t => wrapped (.ofFormat f) path.text t
  | orAbsent a, t => t ++ (a.bar ++ a.marker)
  | absentOr a, t => a.marker ++ (a.bar ++ t)

def isUnion : Layer f → Bool
  | wrap _ _ => false
  | orAbsent _ | absentOr _ => true

def isCollection : Layer f → Bool
  | wrap path _ => (Wrappers.ofFormat f).collections.contains path.last
  | orAbsent _ | absentOr _ => false

def isNullable : Layer f → Bool
  | wrap path _ => (Wrappers.ofFormat f).nullable.contains path.last
  | orAbsent _ | absentOr _ => true

end Layer

/-- A base with layers around it, the outermost first. -/
def written (base : Path) (ls : List (Layer f)) : Text := ls.foldr Layer.around base.text

@[simp] theorem written_nil (base : Path) : written base ([] : List (Layer f)) = base.text := rfl

@[simp] theorem written_cons (base : Path) (l : Layer f) (ls : List (Layer f)) :
    written base (l :: ls) = l.around (written base ls) := rfl

/-- What a base with layers around it means: the outermost collection counts with what stands in
it, and of the layers around that those which allow for no value. -/
def meaning (base : Path) (ls : List (Layer f)) : Peeled where
  name :=
    match ls.dropWhile (!·.isCollection) with
    | [] => base.last
    | _ :: inner => written base inner
  nullable := (ls.takeWhile (!·.isCollection)).any Layer.isNullable
  collection := ls.any Layer.isCollection

theorem meaning_nil (base : Path) :
    meaning base ([] : List (Layer f)) = ⟨base.last, false, false⟩ := rfl

theorem meaning_collection (base : Path) {l : Layer f} (h : l.isCollection = true)
    (ls : List (Layer f)) : meaning base (l :: ls) = ⟨written base ls, false, true⟩ := by
  simp [meaning, h]

theorem meaning_cons (base : Path) {l : Layer f} (h : l.isCollection = false) (ls : List (Layer f)) :
    meaning base (l :: ls) = (meaning base ls).within l.isNullable := by
  simp [meaning, Peeled.within, h]

/-! ## Texts of layers -/

theorem IsBare.closed_wrapped {name inner : Text} (h : IsBare name) (b : Brackets)
    (hinner : Closed inner) (hhead : (inner ++ [b.closing]).head? ≠ some '\'') :
    Closed (wrapped b name inner) := by
  cases b with
  | square => exact h.closed_squared hinner
  | angle =>
    have hgroup : Closed (['<'] ++ (inner ++ ['>'])) :=
      .append (by decide) (hinner.append (by decide) (.inr (by decide))) (.inr hhead)
    exact (closed_of_plain h.plain).append hgroup (.inr (by simp [Brackets.opening]))

/-- A text that begins with a name, ends without a blank, and is one argument. -/
structure Legible (t : Text) : Prop where
  closed : Closed t
  single : ',' ∉ t
  front : ∃ name rest, IsBare name ∧ t = name ++ rest
  last : ∀ c, t.getLast? = some c → isBlank c = false

theorem IsBare.legible {t : Text} (h : IsBare t) : Legible t where
  closed := closed_of_plain h.plain
  single := h.not_mem (by decide)
  front := ⟨t, [], h, (List.append_nil t).symm⟩
  last := (trim_eq_self_iff.1 h.trim_self).2

namespace Legible

variable {t : Text}

theorem ne_nil (h : Legible t) : t ≠ [] := by
  obtain ⟨name, rest, hname, rfl⟩ := h.front
  simp [hname.ne_nil]

theorem head (h : Legible t) (u : Text) :
    ∀ c ∈ (t ++ u).head?, isBlank c = false ∧ c ≠ '"' ∧ c ≠ '\'' ∧ c ≠ '&' := by
  obtain ⟨name, rest, hname, rfl⟩ := h.front
  rw [List.append_assoc]
  exact hname.head_unmarked (rest ++ u)

theorem head_ne_quote (h : Legible t) (u : Text) : (t ++ u).head? ≠ some '\'' :=
  fun hhead => (h.head u _ hhead).2.2.1 rfl

theorem trimmed (h : Legible t) : trim t = t := by
  have hhead := h.head []
  rw [List.append_nil] at hhead
  exact trim_eq_self_iff.2 ⟨fun c hc => (hhead c hc).1, h.last⟩

theorem unmarked (h : Legible t) (hmut : startsWith t "mut ".toList = false) : Unmarked t := by
  have hhead := h.head []
  rw [List.append_nil] at hhead
  exact ⟨h.trimmed, fun c hc => (hhead c hc).2, hmut⟩

theorem wrapped (h : Legible t) (b : Brackets) {name : Text} (hname : IsBare name) :
    Legible (wrapped b name t) where
  closed := hname.closed_wrapped b h.closed (h.head_ne_quote _)
  single := by
    have hcomma := hname.not_mem (c := ',') (by decide)
    cases b <;> simp [Typing.wrapped, Brackets.opening, Brackets.closing, hcomma, h.single]
  front := ⟨name, _, hname, rfl⟩
  last := (trim_eq_self_iff.1 (hname.unmarked_wrapped b t).trimmed).2

theorem union {u : Text} (h : Legible t) (hu : Legible u) (a : Absence f) :
    Legible (t ++ (a.bar ++ u)) where
  closed := by
    have hquote := hu.head_ne_quote []
    rw [List.append_nil] at hquote
    exact h.closed.append (a.closed_bar.append hu.closed (.inr hquote)) (.inr (a.head_ne_quote u))
  single := by simp [h.single, hu.single, a.not_mem_bar (c := ',') (by decide) (by decide)]
  front := by
    obtain ⟨name, rest, hname, rfl⟩ := h.front
    exact ⟨name, rest ++ (a.bar ++ u), hname, List.append_assoc _ _ _⟩
  last c hc := by
    rw [← List.append_assoc, List.getLast?_append_of_ne_nil _ hu.ne_nil] at hc
    exact hu.last c hc

end Legible

theorem legible_written (base : Path) (ls : List (Layer f)) : Legible (written base ls) := by
  induction ls with
  | nil => exact base.bare.legible
  | cons l ls ih =>
    cases l with
    | wrap path known => exact ih.wrapped _ path.bare
    | orAbsent a => exact ih.union a.segment.bare.legible a
    | absentOr a => exact a.segment.bare.legible.union ih a

/-! ## The unions outside -/

/-- The layers inside the unions that stand outermost. -/
def core (ls : List (Layer f)) : List (Layer f) := ls.dropWhile Layer.isUnion

/-- The members for no value before the core. -/
def lefts : List (Layer f) → List (Absence f)
  | .absentOr a :: ls => a :: lefts ls
  | .orAbsent _ :: ls => lefts ls
  | _ => []

/-- The members for no value after the core. -/
def rights : List (Layer f) → List (Absence f)
  | .orAbsent a :: ls => rights ls ++ [a]
  | .absentOr _ :: ls => rights ls
  | _ => []

theorem core_cases (ls : List (Layer f)) :
    core ls = [] ∨ ∃ path known inner, core ls = .wrap path known :: inner := by
  induction ls with
  | nil => exact .inl rfl
  | cons l ls ih =>
    cases l with
    | wrap path known => exact .inr ⟨path, known, ls, rfl⟩
    | orAbsent a => exact ih
    | absentOr a => exact ih

theorem written_core (base : Path) (ls : List (Layer f)) :
    written base ls = leading (lefts ls) ++ (written base (core ls) ++ trailing (rights ls)) := by
  induction ls with
  | nil => simp [core, lefts, rights, leading, trailing]
  | cons l ls ih =>
    cases l with
    | wrap path known => simp [core, lefts, rights, leading, trailing, Layer.isUnion]
    | orAbsent a =>
      have hcore : core (.orAbsent a :: ls) = core ls := rfl
      rw [written_cons, Layer.around, ih, hcore, lefts, rights, trailing_append, trailing_cons]
      simp [trailing]
    | absentOr a =>
      have hcore : core (.absentOr a :: ls) = core ls := rfl
      rw [written_cons, Layer.around, ih, hcore, lefts, rights, leading_cons]
      simp

theorem splitTop_written (base : Path) {ls : List (Layer f)}
    (hbar : TopAll (· != '|') (written base (core ls))) :
    splitTop '|' (written base ls) =
      (lefts ls).map Absence.marker ++ written base (core ls) :: (rights ls).map Absence.marker := by
  have hlegible := legible_written base (core ls)
  have hcore : splitTop '|' (written base (core ls)) = [written base (core ls)] :=
    splitTop_single hbar hlegible.trimmed hlegible.ne_nil
  rw [written_core, splitTop_leading, splitTop_trailing _ hlegible.closed, hcore]
  rfl

/-- The core of a type that is not a member for no value is none either. -/
theorem core_not_absent {base : Path} (hbase : base.text ∉ (Wrappers.ofFormat f).absent)
    (ls : List (Layer f)) : written base (core ls) ∉ (Wrappers.ofFormat f).absent := by
  rcases core_cases ls with hcore | ⟨path, known, inner, hcore⟩ <;> rw [hcore]
  · exact hbase
  · intro habsent
    refine (segment_of_absent f _ habsent).1.not_mem (c := (Brackets.ofFormat f).opening) ?_ ?_
    · cases Brackets.ofFormat f <;> decide
    · simp [Layer.around, Typing.wrapped]

theorem mem_absent_of_mem_markers {as : List (Absence f)} :
    ∀ m ∈ as.map Absence.marker, m ∈ (Wrappers.ofFormat f).absent := by
  intro m hm
  obtain ⟨a, -, rfl⟩ := List.mem_map.1 hm
  exact a.known

/-- All unions outside come off at once. -/
theorem peel_union {base : Path} (hbase : base.text ∉ (Wrappers.ofFormat f).absent)
    {ls : List (Layer f)} (hbar : TopAll (· != '|') (written base (core ls)))
    (hne : lefts ls ++ rights ls ≠ []) (hmut : startsWith (written base ls) "mut ".toList = false) :
    (Wrappers.ofFormat f).peel (written base ls) =
      ((Wrappers.ofFormat f).peel (written base (core ls))).within true := by
  have hlegible := legible_written base ls
  refine peel_of_more hlegible.trimmed (legible_written base (core ls)).trimmed
    (step_union (hlegible.unmarked hmut) (splitTop_written base hbar) ?_ ?_ (core_not_absent hbase ls))
  · rwa [← List.map_append, Ne, List.map_eq_nil_iff]
  · rw [← List.map_append]
    exact mem_absent_of_mem_markers

/-! ## The word for a mutable reference -/

/-- A text that begins with that word begins with it as a name. -/
theorem eq_mut_of_startsWith {name rest : Text} (hname : IsBare name)
    (hrest : ∀ c ∈ rest.head?, isBareChar c = false)
    (h : startsWith (name ++ rest) "mut ".toList = true) :
    name = "mut".toList ∧ ∃ u, rest = ' ' :: u := by
  obtain ⟨u, hu⟩ := startsWith_iff.1 h
  have htext : name ++ rest = "mut".toList ++ ' ' :: u := hu
  have hcut : rest.takeWhile isBareChar = [] := by
    cases rest with
    | nil => rfl
    | cons c rest => exact List.takeWhile_cons_of_neg (by simp [hrest c rfl])
  have hfront := congrArg (List.takeWhile isBareChar) htext
  rw [List.takeWhile_append_of_pos hname.chars, hcut, List.append_nil,
    List.takeWhile_append_of_pos (by decide), List.takeWhile_cons_of_neg (by decide),
    List.append_nil] at hfront
  rw [hfront] at htext
  exact ⟨hfront, u, List.append_cancel_left htext⟩

theorem not_isBareChar_of_mem_bar {a : Absence f} {c : Char} (h : c ∈ a.bar) : isBareChar c = false := by
  rcases a.mem_bar h with hblank | rfl
  · simp [isBareChar, hblank]
  · decide

/-- Only a base of that name with members for no value after it begins with the word. -/
theorem rights_of_startsWith_mut {base : Path} {ls : List (Layer f)}
    (h : startsWith (written base ls) "mut ".toList = true) :
    lefts ls = [] ∧ core ls = [] ∧ base.text = "mut".toList ∧
      ∃ a as blanks, rights ls = a :: as ∧ a.before = ' ' :: blanks := by
  rw [written_core] at h
  cases hlefts : lefts ls with
  | cons a as =>
    rw [hlefts, leading_cons, List.append_assoc, List.append_assoc] at h
    have hmut := (eq_mut_of_startsWith a.segment.bare
      (fun c hc => not_isBareChar_of_mem_bar (a.head_bar _ c hc)) h).1
    exact absurd hmut (segment_of_absent f _ a.known).2
  | nil =>
    rw [hlefts] at h
    refine ⟨rfl, ?_⟩
    rcases core_cases ls with hcore | ⟨path, known, inner, hcore⟩ <;> rw [hcore] at h
    · refine ⟨hcore, ?_⟩
      cases hrights : rights ls with
      | nil =>
        rw [hrights] at h
        obtain ⟨-, u, hu⟩ := eq_mut_of_startsWith base.bare (by simp [trailing]) h
        cases hu
      | cons a as =>
        rw [hrights, trailing_cons, List.append_assoc] at h
        obtain ⟨hbase, u, hu⟩ := eq_mut_of_startsWith base.bare
          (fun c hc => not_isBareChar_of_mem_bar (a.head_bar _ c hc)) h
        refine ⟨hbase, a, as, ?_⟩
        rw [Absence.bar] at hu
        cases hbefore : a.before with
        | nil =>
          rw [hbefore] at hu
          cases hu
        | cons c blanks =>
          rw [hbefore] at hu
          cases hu
          exact ⟨blanks, rfl, rfl⟩
    · have hopening : isBareChar (Brackets.ofFormat f).opening = false := by
        cases Brackets.ofFormat f <;> decide
      rw [written_cons, Layer.around, wrapped, List.append_assoc] at h
      obtain ⟨-, u, hu⟩ := eq_mut_of_startsWith path.bare (by rintro c ⟨⟩; exact hopening) h
      have hspace : (Brackets.ofFormat f).opening ≠ ' ' := by cases Brackets.ofFormat f <;> decide
      exact absurd (List.cons.inj hu).1 hspace

/-- The word comes off with the blanks after it. -/
theorem undecorated_mut {blanks t : Text} (hblanks : ∀ c ∈ blanks, isBlank c = true)
    (htrim : trim t = t) (hne : t ≠ []) : undecorated ("mut ".toList ++ (blanks ++ t)) = t := by
  have hwhole : trim ("mut ".toList ++ (blanks ++ t)) = "mut ".toList ++ (blanks ++ t) := by
    refine trim_eq_self_iff.2 ⟨by rintro c ⟨⟩; decide, fun c hc => ?_⟩
    rw [← List.append_assoc, List.getLast?_append_of_ne_nil _ hne] at hc
    exact (trim_eq_self_iff.1 htrim).2 c hc
  have hpad := trim_pad (v := []) htrim hblanks (by simp)
  rw [undecorated_of_head hwhole (by rintro c ⟨⟩; decide), dropPrefix?_append, Option.getD_some]
  rwa [List.append_nil] at hpad

/-- A text that begins with the word is peeled to what follows it, which begins with a bar. -/
theorem peel_mut {base : Path} {ls : List (Layer f)}
    (h : startsWith (written base ls) "mut ".toList = true) :
    '|' ∈ ((Wrappers.ofFormat f).peel (written base ls)).name := by
  obtain ⟨hlefts, hcore, hbase, a, as, blanks, hrights, hbefore⟩ := rights_of_startsWith_mut h
  have hlegible := legible_written base ls
  -- the word takes the blanks before the bar with it
  obtain ⟨b, hbar, hmarker⟩ : ∃ b : Absence f, b.bar = '|' :: a.after ∧ b.marker = a.marker :=
    ⟨{ a with before := [], blank := a.blank_after }, rfl, rfl⟩
  have hblanks : ∀ c ∈ blanks, isBlank c = true := fun c hc =>
    a.blank_before c (by rw [hbefore]; exact .tail _ hc)
  have htext : written base ls = "mut ".toList ++ (blanks ++ trailing (b :: as)) := by
    rw [written_core, hlefts, hcore, hrights, written_nil, hbase, trailing_cons, trailing_cons, hbar,
      hmarker, Absence.bar, hbefore]
    simp [leading]
  have hhead : trailing (b :: as) = '|' :: (a.after ++ b.marker ++ trailing as) := by
    rw [trailing_cons, hbar]
    rfl
  have hne : trailing (b :: as) ≠ [] := by rw [hhead]; exact List.cons_ne_nil _ _
  have htrim : trim (trailing (b :: as)) = trailing (b :: as) := by
    refine trim_eq_self_iff.2 ⟨fun c hc => ?_, fun c hc => hlegible.last c ?_⟩
    · rw [hhead] at hc
      cases hc
      decide
    · rw [htext, ← List.append_assoc, List.getLast?_append_of_ne_nil _ hne, hc]
  have hsplit : splitTop '|' (trailing (b :: as)) = (b :: as).map Absence.marker :=
    splitTop_trailing (b :: as) (t := []) (by decide)
  obtain ⟨nullable, hstep⟩ := step_absent (w := .ofFormat f) (undecorated_mut hblanks htrim hne) htrim
    (by rw [hsplit]; exact mem_absent_of_mem_markers) (by
      intro c hc
      refine not_mem_trailing _ ?_ ?_ ?_ <;> revert c hc <;> decide)
  rw [← htext] at hstep
  rw [peel_of_done hlegible.trimmed hstep, hhead]
  exact List.mem_cons_self

/-! ## Peeling -/

/-- The types that stand as arguments of wrappers outside every collection. -/
def arguments : List (Layer f) → List (List (Layer f))
  | [] => []
  | l :: ls =>
    if l.isCollection then [] else if l.isUnion then arguments ls else ls :: arguments ls

/-- Whether a text that peeling comes to, the whole or such an argument, begins with the word for a
mutable reference. -/
def misread (base : Path) (ls : List (Layer f)) : Bool :=
  (ls :: arguments ls).any fun argument => startsWith (written base argument) "mut ".toList

section Misread

variable (base : Path) (ls : List (Layer f))

theorem startsWith_wrap (path : Path) (known : path.last ∈ (Wrappers.ofFormat f).names) :
    startsWith (written base (.wrap path known :: ls)) "mut ".toList = false :=
  (path.bare.unmarked_wrapped _ _).immutable

theorem startsWith_core : startsWith (written base (core ls)) "mut ".toList = false := by
  rcases core_cases ls with hcore | ⟨path, known, inner, hcore⟩ <;> rw [hcore]
  · exact base.bare.startsWith_mut
  · exact startsWith_wrap base inner path known

theorem arguments_core : arguments (core ls) = arguments ls := by
  induction ls with
  | nil => rfl
  | cons l ls ih =>
    cases l with
    | wrap path known => rfl
    | orAbsent a => exact ih
    | absentOr a => exact ih

theorem misread_core : misread base ls =
    (startsWith (written base ls) "mut ".toList || misread base (core ls)) := by
  rw [misread, misread, List.any_cons, List.any_cons, startsWith_core, arguments_core, Bool.false_or]

theorem misread_wrap (path : Path) (known : path.last ∈ (Wrappers.ofFormat f).names) :
    misread base (.wrap path known :: ls) =
      (!(Layer.wrap path known).isCollection && misread base ls) := by
  rw [misread, List.any_cons, startsWith_wrap, arguments]
  cases (Layer.wrap path known).isCollection <;> rfl

end Misread

/-- Peeling gives the meaning, or for a type that is misread another name. -/
structure Reads (base : Path) (ls : List (Layer f)) : Prop where
  meant : misread base ls = false → (Wrappers.ofFormat f).peel (written base ls) = meaning base ls
  missed : misread base ls = true →
    ((Wrappers.ofFormat f).peel (written base ls)).name ≠ (meaning base ls).name

theorem Reads.peel_eq_iff {base : Path} {ls : List (Layer f)} (h : Reads base ls) :
    (Wrappers.ofFormat f).peel (written base ls) = meaning base ls ↔ misread base ls = false := by
  refine ⟨fun hpeel => ?_, h.meant⟩
  cases hmisread : misread base ls with
  | false => rfl
  | true => exact absurd (congrArg Peeled.name hpeel) (h.missed hmisread)

theorem reads_nil (base : Path) : Reads base ([] : List (Layer f)) where
  meant _ := by
    rw [written_nil, meaning_nil, peel_of_done base.bare.trim_self
      (step_bare _ base.bare base.bare.unmarked.undecorated_self), base.lastSegment_text]
  missed h := by
    rw [misread, List.any_cons, written_nil, base.bare.startsWith_mut] at h
    cases h

/-- A known wrapper around a type is a collection or comes off. -/
theorem peel_wrap {base : Path} {path : Path} {known : path.last ∈ (Wrappers.ofFormat f).names}
    {ls : List (Layer f)} (hbar : TopAll (· != '|') (written base (.wrap path known :: ls))) :
    (Wrappers.ofFormat f).peel (written base (.wrap path known :: ls)) =
      if (Layer.wrap path known).isCollection then ⟨written base ls, false, true⟩
      else ((Wrappers.ofFormat f).peel (written base ls)).within (Layer.wrap path known).isNullable := by
  have hlegible := legible_written base ls
  have houter := legible_written base (.wrap path known :: ls)
  have hargument : trim (firstArgument (written base ls)) = written base ls := by
    rw [firstArgument_single (topAll_of_not_mem hlegible.single) hlegible.closed, hlegible.trimmed]
  have hwrapped : TopAll (· != '|') (wrapped (.ofFormat f) path.text (written base ls)) := hbar
  have hstep := step_wrapped (.ofFormat f) (.ofFormat f) path.bare hwrapped hlegible.ne_nil
  rw [path.lastSegment_text, hargument] at hstep
  rw [Layer.isCollection, Layer.isNullable]
  split at hstep
  · rename_i hcollection
    rw [if_pos hcollection, peel_of_done houter.trimmed hstep]
  · rename_i hcollection
    rw [if_neg hcollection]
    split at hstep
    · rename_i hnullable
      rw [hnullable, peel_of_more houter.trimmed hlegible.trimmed hstep]
    · rename_i hnullable
      have htransparent : (Wrappers.ofFormat f).transparent.contains path.last = true := by
        simp only [Wrappers.names, List.mem_append, List.contains_iff_mem] at known hcollection hnullable ⊢
        grind
      rw [if_pos htransparent] at hstep
      rw [eq_false_of_ne_true hnullable, peel_of_more houter.trimmed hlegible.trimmed hstep]

theorem reads_wrap {base : Path} {path : Path} {known : path.last ∈ (Wrappers.ofFormat f).names}
    {ls : List (Layer f)} (hbar : TopAll (· != '|') (written base (.wrap path known :: ls)))
    (hinner : Reads base ls) : Reads base (.wrap path known :: ls) := by
  have hpeel := peel_wrap hbar
  have hmisread := misread_wrap base ls path known
  cases hcollection : (Layer.wrap path known).isCollection with
  | true =>
    rw [hcollection] at hmisread
    rw [hcollection, if_pos rfl, ← meaning_collection base hcollection] at hpeel
    refine ⟨fun _ => hpeel, fun h => ?_⟩
    rw [hmisread] at h
    cases h
  | false =>
    rw [hcollection] at hmisread
    rw [hcollection, if_neg Bool.false_ne_true] at hpeel
    refine ⟨fun h => ?_, fun h => ?_⟩ <;> rw [hmisread] at h <;>
      rw [hpeel, meaning_cons base hcollection]
    · rw [hinner.meant h]
    · rw [Peeled.name_within, Peeled.name_within]
      exact hinner.missed h

theorem within_meaning_core (base : Path) (ls : List (Layer f)) :
    (meaning base ls).within true = (meaning base (core ls)).within true := by
  induction ls with
  | nil => rfl
  | cons l ls ih =>
    cases l with
    | wrap path known => rfl
    | orAbsent a => exact (congrArg (Peeled.within · true) (meaning_cons base rfl ls)).trans ih
    | absentOr a => exact (congrArg (Peeled.within · true) (meaning_cons base rfl ls)).trans ih

theorem meaning_union (base : Path) {l : Layer f} (hl : l.isUnion = true) (ls : List (Layer f)) :
    meaning base (l :: ls) = (meaning base (core (l :: ls))).within true := by
  cases l with
  | wrap path known => cases hl
  | orAbsent a => rw [meaning_cons base rfl, ← within_meaning_core]; rfl
  | absentOr a => rw [meaning_cons base rfl, ← within_meaning_core]; rfl

theorem reads_union {base : Path} (hbase : base.text ∉ (Wrappers.ofFormat f).absent) {l : Layer f}
    (hl : l.isUnion = true) {ls : List (Layer f)}
    (hbar : TopAll (· != '|') (written base (core (l :: ls)))) (hcore : Reads base (core (l :: ls))) :
    Reads base (l :: ls) := by
  have hmeaning := meaning_union base hl ls
  have hmisread := misread_core base (l :: ls)
  cases hmut : startsWith (written base (l :: ls)) "mut ".toList with
  | true =>
    rw [hmut] at hmisread
    refine ⟨fun h => ?_, fun _ hname => ?_⟩
    · rw [hmisread] at h
      cases h
    · have hbar := peel_mut hmut
      rw [hname, hmeaning, Peeled.name_within, (rights_of_startsWith_mut hmut).2.1] at hbar
      exact base.naming.not_mem (by decide) hbar
  | false =>
    have hne : lefts (l :: ls) ++ rights (l :: ls) ≠ [] := by
      cases l with
      | wrap path known => cases hl
      | orAbsent a => simp [rights]
      | absentOr a => simp [lefts]
    have hpeel := peel_union hbase hbar hne hmut
    rw [hmut, Bool.false_or] at hmisread
    refine ⟨fun h => ?_, fun h => ?_⟩ <;> rw [hmisread] at h <;> rw [hpeel, hmeaning]
    · rw [hcore.meant h]
    · rw [Peeled.name_within, Peeled.name_within]
      exact hcore.missed h

/-- The core has no bar at its top level: square brackets hide those inside them, and without members
for no value there is none. -/
theorem topAll_core (hf : Brackets.ofFormat f = .square ∨ (Wrappers.ofFormat f).absent = [])
    (base : Path) (ls : List (Layer f)) : TopAll (· != '|') (written base (core ls)) := by
  rcases hf with hsquare | hnone
  · rcases core_cases ls with hcore | ⟨path, known, inner, hcore⟩ <;> rw [hcore]
    · exact base.bare.topAll_bar
    · rw [written_cons, Layer.around, hsquare]
      exact path.bare.topAll_squared (legible_written base inner).closed (by decide) (by decide)
  · refine topAll_of_not_mem ?_
    generalize core ls = ms
    induction ms with
    | nil => exact base.bare.not_mem (by decide)
    | cons l ms ih =>
      have habsent : ∀ a : Absence f, False := fun a => by simpa [hnone] using a.known
      cases l with
      | wrap path known =>
        have hname := path.bare.not_mem (c := '|') (by decide)
        rw [written_cons, Layer.around]
        cases Brackets.ofFormat f <;>
          simp [wrapped, Brackets.opening, Brackets.closing, hname, ih]
      | orAbsent a => exact (habsent a).elim
      | absentOr a => exact (habsent a).elim

theorem reads_core (hf : Brackets.ofFormat f = .square ∨ (Wrappers.ofFormat f).absent = [])
    {base : Path} (hbase : base.text ∉ (Wrappers.ofFormat f).absent) (ls : List (Layer f)) :
    Reads base ls ∧ Reads base (core ls) := by
  -- the unions outside come off together, so that the core is carried along for the next of them
  induction ls with
  | nil => exact ⟨reads_nil base, reads_nil base⟩
  | cons l ls ih =>
    have hbar := topAll_core hf base (l :: ls)
    cases l with
    | wrap path known => exact ⟨reads_wrap hbar ih.1, reads_wrap hbar ih.1⟩
    | orAbsent a => exact ⟨reads_union hbase rfl hbar ih.2, ih.2⟩
    | absentOr a => exact ⟨reads_union hbase rfl hbar ih.2, ih.2⟩

/-- Only a base of that name is misread, and only where there are members for no value. -/
theorem base_of_misread {base : Path} {ls : List (Layer f)} (h : misread base ls = true) :
    base.text = "mut".toList ∧ (Wrappers.ofFormat f).absent ≠ [] := by
  rw [misread, List.any_eq_true] at h
  obtain ⟨argument, -, hmut⟩ := h
  obtain ⟨-, -, hbase, a, -⟩ := rights_of_startsWith_mut hmut
  exact ⟨hbase, List.ne_nil_of_mem a.known⟩

/-! ## Expressions -/

/-- A type expression of a format. -/
structure Expression (f : Source.Format) where
  layers : List (Layer f)
  base : Path
  present : base.text ∉ (Wrappers.ofFormat f).absent

namespace Expression

def text (e : Expression f) : Text := written e.base e.layers

def meaning (e : Expression f) : Peeled := Typing.meaning e.base e.layers

def misread (e : Expression f) : Bool := Typing.misread e.base e.layers

end Expression

/-- Peeling gives the meaning of every expression that is not misread, which happens to no other
base than `mut`. -/
theorem peel_eq_meaning_iff (hf : f ∈ [.python, .pytest, .rust, .java]) (e : Expression f) :
    ((Wrappers.ofFormat f).peel e.text = e.meaning ↔ e.misread = false) ∧
      (e.misread = true → e.base.text = "mut".toList ∧ (f = .python ∨ f = .pytest)) := by
  have hbrackets : ∀ g ∈ [.python, .pytest, .rust, .java],
      Brackets.ofFormat g = .square ∨ (Wrappers.ofFormat g).absent = [] := by decide
  have habsent : ∀ g ∈ [.python, .pytest, .rust, .java],
      (Wrappers.ofFormat g).absent ≠ [] → g = .python ∨ g = .pytest := by decide
  refine ⟨(reads_core (hbrackets f hf) e.present e.layers).1.peel_eq_iff, fun hmisread => ?_⟩
  obtain ⟨hbase, hne⟩ := base_of_misread hmisread
  exact ⟨hbase, habsent f hf hne⟩

/-- A name without others before it. -/
def Path.single (t : Text) (h : IsSegment t) : Path := ⟨[], t, by simp, h⟩

/-- A member for no value with a space on both sides of its bar. -/
def Absence.spaced (marker : Text) (known : marker ∈ (Wrappers.ofFormat f).absent) : Absence f :=
  ⟨marker, known, [' '], [' '], by decide⟩

/-- The type `mut | None`. -/
def mutOrNone : Expression .python where
  layers := [.orAbsent (.spaced "None".toList (by decide))]
  base := .single "mut".toList (by decide)
  present := by decide

/-- The type `Optional[None | typing.List[mut | None]]`. -/
def optionalList : Expression .python where
  layers :=
    [.wrap (.single "Optional".toList (by decide)) (by decide),
      .absentOr (.spaced "None".toList (by decide)),
      .wrap ⟨[("typing".toList, .dot)], "List".toList, by decide, by decide⟩ (by decide)] ++
        mutOrNone.layers
  base := mutOrNone.base
  present := mutOrNone.present

theorem peel_optionalList :
    Source.Format.python ∈ [Source.Format.python, .pytest, .rust, .java] ∧
      (Wrappers.ofFormat .python).peel "Optional[None | typing.List[mut | None]]".toList =
        ⟨"mut | None".toList, true, true⟩ := by
  have htext : optionalList.text = "Optional[None | typing.List[mut | None]]".toList := by decide
  have hmeaning : optionalList.meaning = ⟨"mut | None".toList, true, true⟩ := by decide
  rw [← htext, ← hmeaning]
  exact ⟨by decide, (peel_eq_meaning_iff (by decide) optionalList).1.2 (by decide)⟩

theorem peel_mutOrNone :
    mutOrNone.text = "mut | None".toList ∧
      mutOrNone.meaning = ⟨"mut".toList, true, false⟩ ∧
      (Wrappers.ofFormat .python).peel mutOrNone.text = ⟨"| None".toList, false, false⟩ := by
  decide

end Concord.Typing
