/-
Fields of types with references and pointers around them. Fuel never runs out, since every
argument is shorter than its type (`fieldFrom_fuel`), and a field goes by the shape of its type
alone: the arguments that are looked into, the name, and whether it is a list
(`unspelled_fieldOfType_of_shape`). So a reference and a pointer leave the field of their target
unchanged but for the spelling, and a lifetime leaves that of a type with a path.
-/
import Concord.Proofs.Typing.Peel
import Concord.Source.Braced.Model

namespace Concord.Source

/-- A field without what the source writes for its type. -/
def Field.unspelled (f : Field) : Field := { f with spelling := "" }

namespace Braced

open Text Typing

variable (constants : Constants) (name : String)

/-! ## Fuel -/

theorem length_lt_of_argumentOf? {names : List String} {t inner : Text}
    (h : argumentOf? names t = some inner) : inner.length < t.length := by
  unfold argumentOf? at h
  split at h
  · cases h
  · rename_i head rest hcut
    split at h
    · cases h
      exact length_trim_take_lt hcut _
    · cases h

theorem length_dereferenced_le (t : Text) : (dereferenced t).length ≤ t.length := by
  have hdrop : ∀ p u : Text, (((dropPrefix? p u).map trimStart).getD u).length ≤ u.length := by
    intro p u
    cases h : dropPrefix? p u with
    | none => exact Nat.le_refl _
    | some v =>
      have hv := length_trimStart_le v
      rw [dropPrefix?_eq_some_iff] at h
      simp only [Option.map_some, Option.getD_some, h, List.length_append]
      omega
  calc (dereferenced t).length
    _ ≤ _ := hdrop _ _
    _ ≤ _ := hdrop _ _
    _ ≤ (stripLeading '&' (trim t)).length := length_trimStart_le _
    _ ≤ (trim t).length := (List.dropWhile_sublist _).length_le
    _ ≤ t.length := length_trim_le t

/-- More fuel than characters is enough fuel. -/
theorem fieldFrom_fuel {n m : Nat} {t : Text} (hn : t.length < n) (hm : t.length < m) :
    fieldFrom constants name n t = fieldFrom constants name m t := by
  induction n generalizing m t with
  | zero => omega
  | succ n ih =>
    obtain ⟨m, rfl⟩ : ∃ k, m = k + 1 := ⟨m - 1, by omega⟩
    have hle := length_dereferenced_le t
    have hinner : ∀ names inner, argumentOf? names (dereferenced t) = some inner →
        fieldFrom constants name n inner = fieldFrom constants name m inner := by
      intro names inner hargument
      have hlt := length_lt_of_argumentOf? hargument
      exact ih (by omega) (by omega)
    unfold fieldFrom
    dsimp only
    split
    · rename_i inner hoption
      rw [hinner _ inner hoption]
    split
    · rename_i inner hpointer
      rw [hinner _ inner hpointer]
    · rfl

/-! ## Shapes -/

/-- The names of types that a reader looks into. -/
def lookedInto : List (List String) :=
  [["Option"], ["Box", "Rc", "Arc"], ["Vec", "HashSet", "BTreeSet", "VecDeque"],
    ["HashMap", "BTreeMap"]]

/-- Two types that a field cannot tell apart. -/
structure SameShape (t u : Text) : Prop where
  arguments : ∀ names ∈ lookedInto, argumentOf? names t = argumentOf? names u
  list : startsWith t ['['] = startsWith u ['[']
  base : baseName t = baseName u

theorem SameShape.refl (t : Text) : SameShape t t := ⟨fun _ _ => rfl, rfl, rfl⟩

theorem unspelled_fieldFrom_of_shape {t u : Text} (h : SameShape (dereferenced t) (dereferenced u))
    (n : Nat) : (fieldFrom constants name (n + 1) t).unspelled =
      (fieldFrom constants name (n + 1) u).unspelled := by
  have hoption := h.arguments ["Option"] (by decide)
  have hpointer := h.arguments ["Box", "Rc", "Arc"] (by decide)
  have hlist := h.arguments ["Vec", "HashSet", "BTreeSet", "VecDeque"] (by decide)
  have hmap := h.arguments ["HashMap", "BTreeMap"] (by decide)
  unfold fieldFrom fieldOfBase
  simp only [hoption, hpointer, hlist, hmap, h.list, h.base]
  split
  · rfl
  split
  · rfl
  split
  · rfl
  split
  · rfl
  · rfl

theorem unspelled_fieldOfType_of_shape {t u : Text}
    (h : SameShape (dereferenced t) (dereferenced u)) :
    (fieldOfType constants name t).unspelled = (fieldOfType constants name u).unspelled := by
  unfold fieldOfType
  rw [fieldFrom_fuel constants name (m := t.length + u.length + 1) (by omega) (by omega),
    fieldFrom_fuel constants name (t := u) (m := t.length + u.length + 1) (by omega) (by omega)]
  exact unspelled_fieldFrom_of_shape constants name h _

theorem argumentOf?_eq_none {names : List String} {t : Text}
    (h : ∀ n ∈ names, n.toList ≠ baseName t) : argumentOf? names t = none := by
  unfold argumentOf?
  split
  · rfl
  · rename_i head rest hcut
    have hbase : baseName t = trim (lastPart head) := by
      rw [baseName, ← cut?_char_eq_some hcut]
    rw [if_neg]
    rw [Bool.and_eq_true, not_and, List.any_eq_true]
    rintro - ⟨n, hn, heq⟩
    exact h n hn ((beq_iff_eq.1 heq).trans hbase.symm)

/-! ## References -/

theorem dereferenced_of_unmarked {t : Text} (h : Unmarked t) : dereferenced t = t := by
  obtain ⟨-, hsingle, hreference⟩ := head_ne_marks h.head
  have hstatic : dropPrefix? "'static".toList t = none := by
    rw [Option.eq_none_iff_forall_not_mem]
    intro u hu
    rw [dropPrefix?_eq_some_iff.1 hu] at hsingle
    exact hsingle rfl
  unfold dereferenced
  simp only [h.trimmed, stripLeading_of_head hreference, h.trimStart_self, hstatic,
    dropPrefix?_eq_none_iff.2 h.immutable, Option.map_none, Option.getD_none]

theorem dereferenced_trim (t : Text) : dereferenced (trim t) = dereferenced t := by
  unfold dereferenced
  rw [trim_trim]

theorem dereferenced_reference {t : Text} (h : ∀ c ∈ t.head?, isBlank c = false) :
    dereferenced ('&' :: t) = dereferenced t := by
  have htrim : stripLeading '&' (trim ('&' :: t)) = stripLeading '&' (trim t) := by
    rw [trim, trimStart_of_head (by rintro c ⟨⟩; decide), trimEnd, dropEndWhile_cons_of_neg (by decide),
      trim, trimStart_of_head h]
    rfl
  unfold dereferenced
  rw [htrim]

/-- A reference is read as what it points at. -/
theorem unspelled_fieldOfType_reference {t : Text} (h : ∀ c ∈ t.head?, isBlank c = false) :
    (fieldOfType constants name ('&' :: t)).unspelled = (fieldOfType constants name t).unspelled := by
  refine unspelled_fieldOfType_of_shape constants name ?_
  rw [dereferenced_reference h]
  exact .refl _

/-! ## Pointers -/

/-- A name with arguments in angle brackets. -/
def angled (outer inner : Text) : Text := outer ++ '<' :: (inner ++ ['>'])

theorem unmarked_angled {outer : Text} (h : IsName outer) (inner : Text) :
    Unmarked (angled outer inner) := h.bare.unmarked_wrapped .angle inner

theorem lastPart_of_not_mem {t : Text} (h : ':' ∉ t) : lastPart t = t := by
  rw [lastPart, cutLast?_of_not_mem (c := ':') (by decide) h]
  rfl

theorem lastPart_name {t : Text} (h : IsName t) : lastPart t = t :=
  lastPart_of_not_mem (h.not_mem (by decide))

theorem baseName_name {t : Text} (h : IsName t) : baseName t = t := by
  have hkeep : t.takeWhile (· != '<') = t :=
    takeWhile_of_not_mem (h.not_mem (by decide))
  rw [baseName, hkeep, lastPart_name h, h.trim_self]

theorem takeWhile_angled {outer : Text} (h : IsName outer) (inner : Text) :
    (angled outer inner).takeWhile (· != '<') = outer := by
  rw [angled, takeWhile_append_of_not_mem (h.not_mem (by decide)),
    List.takeWhile_cons_of_neg (by simp), List.append_nil]

theorem baseName_angled {outer : Text} (h : IsName outer) (inner : Text) :
    baseName (angled outer inner) = outer := by
  rw [baseName, takeWhile_angled h, lastPart_name h, h.trim_self]

theorem argumentOf?_angled {outer : Text} (h : IsName outer) (inner : Text) {names : List String}
    (hmem : ∃ n ∈ names, n.toList = outer) :
    argumentOf? names (angled outer inner) = some (trim inner) := by
  have hcut : cut? ['<'] (angled outer inner) = some (outer, inner ++ ['>']) :=
    cut?_char (h.not_mem (by decide)) _
  have hends : endsWith (angled outer inner) ['>'] = true := by
    rw [endsWith_char, angled, List.getLast?_append_of_ne_nil _ (List.cons_ne_nil _ _), getLast?_group]
  have hany : (names.any fun n => n.toList == trim (lastPart outer)) = true := by
    rw [lastPart_name h, h.trim_self, List.any_eq_true]
    obtain ⟨n, hn, heq⟩ := hmem
    exact ⟨n, hn, beq_iff_eq.2 heq⟩
  simp [argumentOf?, hcut, hends, hany]

/-- A pointer is read as what it points at. -/
theorem unspelled_fieldOfType_pointer {outer : String} (h : outer ∈ ["Box", "Rc", "Arc"]) (t : Text) :
    (fieldOfType constants name (angled outer.toList t)).unspelled =
      (fieldOfType constants name t).unspelled := by
  have hname : ∀ o ∈ ["Box", "Rc", "Arc"], IsName o.toList ∧ "Option".toList ≠ o.toList := by decide
  obtain ⟨hisName, hoption⟩ := hname outer h
  have hnone : argumentOf? ["Option"] (angled outer.toList t) = none := by
    refine argumentOf?_eq_none fun n hn => ?_
    rw [List.mem_singleton.1 hn, baseName_angled hisName]
    exact hoption
  have hsome : argumentOf? ["Box", "Rc", "Arc"] (angled outer.toList t) = some (trim t) :=
    argumentOf?_angled hisName t ⟨outer, h, rfl⟩
  have hstep : (fieldOfType constants name (angled outer.toList t)).unspelled =
      (fieldFrom constants name (angled outer.toList t).length (trim t)).unspelled := by
    unfold fieldOfType
    rw [fieldFrom]
    simp only [dereferenced_of_unmarked (unmarked_angled hisName t), hnone, hsome]
    rfl
  have hlength := length_lt_of_argumentOf? hsome
  rw [hstep, fieldFrom_fuel constants name hlength (Nat.lt_succ_self _)]
  refine unspelled_fieldOfType_of_shape constants name (t := trim t) ?_
  rw [dereferenced_trim]
  exact .refl _

/-- Of any other name with arguments, the arguments are not read. -/
theorem unspelled_fieldOfType_angled {outer : Text} (h : IsName outer)
    (hnone : ∀ names ∈ lookedInto, ∀ n ∈ names, n.toList ≠ outer) (t : Text) :
    (fieldOfType constants name (angled outer t)).unspelled =
      (fieldOfType constants name outer).unspelled := by
  refine unspelled_fieldOfType_of_shape constants name ?_
  rw [dereferenced_of_unmarked (unmarked_angled h t), dereferenced_of_unmarked h.unmarked]
  refine ⟨fun names hnames => ?_, ?_, ?_⟩
  · rw [argumentOf?_eq_none, argumentOf?_eq_none]
    · rw [baseName_name h]
      exact hnone names hnames
    · rw [baseName_angled h]
      exact hnone names hnames
  · obtain ⟨c, u, rfl⟩ := List.exists_cons_of_ne_nil h.ne_nil
    rw [angled, List.cons_append, startsWith_cons, startsWith_cons]
    rfl
  · rw [baseName_name h, baseName_angled h]

/-! ## Lifetimes -/

/-- A reference with a lifetime. -/
def lifetimed (a t : Text) : Text := '&' :: '\'' :: (a ++ ' ' :: t)

section Lifetimes

variable {a t : Text}

theorem dereferenced_lifetimed (ht : Unmarked t) (hne : t ≠ []) (rest : Text)
    (hrest : rest = (((dropPrefix? "static".toList a).map fun b => trimStart (b ++ ' ' :: t)).getD
      ('\'' :: (a ++ ' ' :: t)))) :
    dereferenced (lifetimed a t) = ((dropPrefix? "mut ".toList rest).map trimStart).getD rest := by
  have htrim : trim (lifetimed a t) = lifetimed a t := by
    refine trim_eq_self_iff.2 ⟨by rintro c ⟨⟩; decide, fun c hc => ?_⟩
    have hlast : (lifetimed a t).getLast? = t.getLast? := getLast?_append_cons ('&' :: '\'' :: a) ' ' hne
    rw [hlast] at hc
    exact (trim_eq_self_iff.1 ht.trimmed).2 c hc
  have hstrip : trimStart (stripLeading '&' (lifetimed a t)) = '\'' :: (a ++ ' ' :: t) := by
    rw [lifetimed, stripLeading, List.dropWhile_cons_of_pos (by decide),
      List.dropWhile_cons_of_neg (by decide)]
    exact trimStart_of_head (by rintro c ⟨⟩; decide)
  have hstatic : dropPrefix? "'static".toList ('\'' :: (a ++ ' ' :: t)) =
      (dropPrefix? "static".toList a).map (· ++ ' ' :: t) :=
    dropPrefix?_append_cons (p := "static".toList) (by decide) a t
  unfold dereferenced
  simp only [htrim, hstrip, hstatic, Option.map_map]
  rw [hrest]
  rfl

/-- Other lifetimes than `'static` stay. -/
theorem dereferenced_foreign (ht : Unmarked t) (hne : t ≠ [])
    (ha : startsWith a "static".toList = false) :
    dereferenced (lifetimed a t) = '\'' :: (a ++ ' ' :: t) := by
  rw [dereferenced_lifetimed ht hne _ rfl, dropPrefix?_eq_none_iff.2 ha]
  rfl

theorem dereferenced_static (ht : Unmarked t) (hne : t ≠ []) :
    dereferenced (lifetimed "static".toList t) = t := by
  have hrest : t = (((dropPrefix? "static".toList "static".toList).map
      fun b => trimStart (b ++ ' ' :: t)).getD ('\'' :: ("static".toList ++ ' ' :: t))) := by
    have hself : dropPrefix? "static".toList "static".toList = some [] := by decide
    rw [hself]
    have hblank := trimStart_append_blank (u := [' ']) (by decide) t
    rw [ht.trimStart_self] at hblank
    exact hblank.symm
  rw [dereferenced_lifetimed ht hne t hrest, dropPrefix?_eq_none_iff.2 ht.immutable]
  rfl

/-- Whatever is left of a lifetime stands in front. -/
theorem exists_dereferenced_lifetimed (ht : Unmarked t) (hne : t ≠ []) (ha : IsName a) :
    ∃ q, dereferenced (lifetimed a t) = q ++ t ∧ '<' ∉ q ∧ q.head? ≠ some '[' := by
  cases hstatic : dropPrefix? "static".toList a with
  | none =>
    refine ⟨'\'' :: (a ++ [' ']), ?_, ?_, by simp⟩
    · rw [dereferenced_foreign ht hne (dropPrefix?_eq_none_iff.1 hstatic)]
      simp
    · simp [ha.not_mem (c := '<') (by decide)]
  | some b =>
    have htext := dropPrefix?_eq_some_iff.1 hstatic
    by_cases hb : b = []
    · rw [hb, List.append_nil] at htext
      subst htext
      exact ⟨[], by rw [dereferenced_static ht hne]; rfl, by simp, by simp⟩
    · have hname : IsName b := ⟨hb, fun c hc => ha.chars c (htext ▸ List.mem_append_right _ hc)⟩
      have hrest : b ++ ' ' :: t = (((dropPrefix? "static".toList a).map
          fun b => trimStart (b ++ ' ' :: t)).getD ('\'' :: (a ++ ' ' :: t))) := by
        rw [hstatic]
        exact (trimStart_of_head fun c hc => (hname.bare.head_unmarked _ c hc).1).symm
      rw [dereferenced_lifetimed ht hne _ hrest]
      cases hmut : dropPrefix? "mut ".toList (b ++ ' ' :: t) with
      | none =>
        refine ⟨b ++ [' '], by simp, by simp [hname.not_mem (c := '<') (by decide)], ?_⟩
        obtain ⟨c, u, rfl⟩ := List.exists_cons_of_ne_nil hb
        exact fun hc => hname.head_ne (c := '[') (by decide) hc
      | some v =>
        -- the blank after the lifetime is the first one, so that it is the one after `mut`
        have hcut : some (b, t) = some ("mut".toList, v) := by
          rw [← cut?_char (hname.not_mem (c := ' ') (by decide)) t, dropPrefix?_eq_some_iff.1 hmut]
          exact cut?_char (t := "mut".toList) (by decide) v
        cases hcut
        exact ⟨[], ht.trimStart_self, by simp, by simp⟩

end Lifetimes

/-- A type whose name has a path in front. -/
structure HasPath (t : Text) : Prop where
  path : occurs "::".toList (t.takeWhile (· != '<')) = true
  notList : t.head? ≠ some '['

/-- A path is cut off whatever it is. -/
theorem exists_lastPart (r : Text) : ∃ last, ∀ x, lastPart (x ++ ("::".toList ++ r)) = last := by
  obtain ⟨last, hlast⟩ := cutLast?_append_left (p := "::".toList) (by decide) r
  refine ⟨last, fun x => ?_⟩
  obtain ⟨first, hcut⟩ := hlast x
  rw [lastPart, hcut]
  rfl

section Paths

variable {x y r : Text}

theorem argumentOf?_path (hx : '<' ∉ x) (hy : '<' ∉ y) (names : List String) :
    argumentOf? names (x ++ ("::".toList ++ r)) = argumentOf? names (y ++ ("::".toList ++ r)) := by
  by_cases hr : '<' ∈ r
  · obtain ⟨r₁, r₂, rfl, hfree⟩ := List.eq_append_cons_of_mem hr
    obtain ⟨last, hlast⟩ := exists_lastPart r₁
    have hcut : ∀ z, '<' ∉ z → cut? ['<'] (z ++ ("::".toList ++ (r₁ ++ '<' :: r₂))) =
        some (z ++ ("::".toList ++ r₁), r₂) := by
      intro z hz
      have hbefore : '<' ∉ z ++ ("::".toList ++ r₁) := by simp [hz, hfree]
      simpa using cut?_char hbefore r₂
    have hends : ∀ z, endsWith (z ++ ("::".toList ++ (r₁ ++ '<' :: r₂))) ['>'] =
        endsWith ("::".toList ++ (r₁ ++ '<' :: r₂)) ['>'] := by
      intro z
      rw [Bool.eq_iff_iff, endsWith_char, endsWith_char,
        List.getLast?_append_of_ne_nil z (by simp)]
    simp only [argumentOf?, hcut x hx, hcut y hy, hends, hlast]
  · have hnone : ∀ z, '<' ∉ z → cut? ['<'] (z ++ ("::".toList ++ r)) = none :=
      fun z hz => cut?_char_none (by simp [hz, hr])
    simp only [argumentOf?, hnone x hx, hnone y hy]

theorem baseName_path (hx : '<' ∉ x) (hy : '<' ∉ y) :
    baseName (x ++ ("::".toList ++ r)) = baseName (y ++ ("::".toList ++ r)) := by
  obtain ⟨last, hlast⟩ := exists_lastPart (r.takeWhile (· != '<'))
  have hcolons : '<' ∉ "::".toList := by decide
  simp only [baseName, takeWhile_append_of_not_mem hx, takeWhile_append_of_not_mem hy,
    takeWhile_append_of_not_mem hcolons, hlast]

end Paths

theorem startsWith_bracket {t : Text} (h : t.head? ≠ some '[') : startsWith t ['['] = false := by
  rw [← Bool.not_eq_true, startsWith_iff]
  rintro ⟨u, rfl⟩
  exact h rfl

/-- Something in front of a type with a path goes with the path. -/
theorem HasPath.sameShape {t : Text} (h : HasPath t) {q : Text} (hq : '<' ∉ q)
    (hlist : q.head? ≠ some '[') : SameShape (q ++ t) t := by
  obtain ⟨⟨x, y⟩, hcut⟩ := Option.isSome_iff_exists.1 h.path
  have htext : t = x ++ ("::".toList ++ (y ++ t.dropWhile (· != '<'))) := by
    conv_lhs => rw [← List.takeWhile_append_dropWhile (p := (· != '<')) (l := t), cut?_eq_some hcut]
    simp
  have hx : '<' ∉ x := by
    intro hmem
    have hin : '<' ∈ t.takeWhile (· != '<') := by
      rw [cut?_eq_some hcut]
      exact List.mem_append_left _ hmem
    simpa using List.all_eq_true.1 List.all_takeWhile '<' hin
  have hqx : '<' ∉ q ++ x := by simp [hq, hx]
  have hqlist : (q ++ t).head? ≠ some '[' := by
    cases q with
    | nil => exact h.notList
    | cons c q => exact hlist
  refine ⟨fun names _ => ?_, ?_, ?_⟩
  · rw [htext, ← List.append_assoc]
    exact argumentOf?_path hqx hx names
  · rw [startsWith_bracket hqlist, startsWith_bracket h.notList]
  · rw [htext, ← List.append_assoc]
    exact baseName_path hqx hx

/-- A lifetime is lost on a type with a path. -/
theorem unspelled_fieldOfType_path {a t : Text} (ht : Unmarked t) (h : HasPath t) (ha : IsName a) :
    (fieldOfType constants name (lifetimed a t)).unspelled =
      (fieldOfType constants name t).unspelled := by
  have hne : t ≠ [] := by
    rintro rfl
    exact absurd h.path (by decide)
  obtain ⟨q, hq, hangle, hlist⟩ := exists_dereferenced_lifetimed ht hne ha
  refine unspelled_fieldOfType_of_shape constants name ?_
  rw [hq, dereferenced_of_unmarked ht]
  exact h.sameShape hangle hlist

theorem unspelled_fieldOfType_static {t : Text} (ht : Unmarked t) (hne : t ≠ []) :
    (fieldOfType constants name (lifetimed "static".toList t)).unspelled =
      (fieldOfType constants name t).unspelled := by
  refine unspelled_fieldOfType_of_shape constants name ?_
  rw [dereferenced_static ht hne, dereferenced_of_unmarked ht]
  exact .refl t

/-! ## Types of one name -/

/-- A type of one name, with or without arguments that are not looked into. -/
structure HasName (t base : Text) : Prop where
  name : IsName base
  text : t = base ∨ ∃ inner, t = angled base inner
  notLookedInto : ∀ names ∈ lookedInto, ∀ n ∈ names, n.toList ≠ base

theorem fieldFrom_eq_base {t base : Text} (n : Nat) (hbase : baseName (dereferenced t) = base)
    (hlist : (dereferenced t).head? ≠ some '[')
    (hlooked : ∀ names ∈ lookedInto, ∀ n ∈ names, n.toList ≠ base) :
    (fieldFrom constants name (n + 1) t).unspelled =
      (fieldOfBase constants name (dereferenced t)).unspelled := by
  have hnone : ∀ names ∈ lookedInto, argumentOf? names (dereferenced t) = none := fun names hnames =>
    argumentOf?_eq_none (by rw [hbase]; exact hlooked names hnames)
  unfold fieldFrom
  simp only [hnone ["Option"] (by decide), hnone ["Box", "Rc", "Arc"] (by decide),
    hnone ["Vec", "HashSet", "BTreeSet", "VecDeque"] (by decide),
    hnone ["HashMap", "BTreeMap"] (by decide), startsWith_bracket hlist]
  rfl

namespace HasName

variable {t base : Text}

theorem unmarked (h : HasName t base) : Unmarked t := by
  obtain rfl | ⟨inner, rfl⟩ := h.text
  · exact h.name.unmarked
  · exact unmarked_angled h.name inner

theorem takeWhile_eq (h : HasName t base) : t.takeWhile (· != '<') = base := by
  obtain rfl | ⟨inner, rfl⟩ := h.text
  · exact takeWhile_of_not_mem (h.name.not_mem (by decide))
  · exact takeWhile_angled h.name inner

theorem ne_nil (h : HasName t base) : t ≠ [] := by
  rintro rfl
  exact h.name.ne_nil h.takeWhile_eq.symm

theorem baseName_eq (h : HasName t base) : baseName t = base := by
  obtain rfl | ⟨inner, rfl⟩ := h.text
  · exact baseName_name h.name
  · exact baseName_angled h.name inner

theorem head_ne (h : HasName t base) : t.head? ≠ some '[' := by
  have hhead := h.name.head_ne (c := '[') (by decide)
  obtain ⟨c, u, hbase⟩ := List.exists_cons_of_ne_nil h.name.ne_nil
  rw [hbase] at hhead
  obtain rfl | ⟨inner, rfl⟩ := h.text <;> simpa [hbase, angled] using hhead

/-- A type of one name is read by the name. -/
theorem unspelled_fieldOfType (h : HasName t base) : (fieldOfType constants name t).unspelled =
    (fieldOfBase constants name t).unspelled := by
  have hself := dereferenced_of_unmarked h.unmarked
  have hread := fieldFrom_eq_base constants name (t := t) t.length (by rw [hself, h.baseName_eq])
    (by rw [hself]; exact h.head_ne) h.notLookedInto
  rwa [hself] at hread

/-- Behind a lifetime it is left to be resolved, by the lifetime and the name. -/
theorem unspelled_fieldOfType_foreign (h : HasName t base) {a : Text} (hlifetime : IsName a)
    (hstatic : startsWith a "static".toList = false)
    (hconstant : constants.get? (String.ofList ('\'' :: (a ++ ' ' :: base))) = none) :
    (fieldOfType constants name (lifetimed a t)).unspelled =
      (Field.plain name (.unresolved (String.ofList ('\'' :: (a ++ ' ' :: base))))).unspelled := by
  have hself := dereferenced_foreign h.unmarked h.ne_nil hstatic
  have hangle : '<' ∉ '\'' :: (a ++ [' ']) := by simp [hlifetime.not_mem (c := '<') (by decide)]
  have hcolon : ':' ∉ '\'' :: (a ++ ' ' :: base) := by
    simp [hlifetime.not_mem (c := ':') (by decide), h.name.not_mem (c := ':') (by decide)]
  have hbase : baseName (dereferenced (lifetimed a t)) = '\'' :: (a ++ ' ' :: base) := by
    have htake : (dereferenced (lifetimed a t)).takeWhile (· != '<') = '\'' :: (a ++ ' ' :: base) := by
      have happend := takeWhile_append_of_not_mem hangle t
      rw [h.takeWhile_eq] at happend
      rw [hself]
      simpa using happend
    rw [baseName, htake, lastPart_of_not_mem hcolon]
    refine trim_eq_self_iff.2 ⟨by rintro c ⟨⟩; decide, fun c hc => ?_⟩
    have hlast := getLast?_append_cons ('\'' :: a) ' ' h.name.ne_nil
    rw [List.cons_append, hc] at hlast
    exact (trim_eq_self_iff.1 h.name.trim_self).2 c hlast.symm
  -- no name that a reader knows begins with a quote
  have hquoted : ∀ n : String, n.toList.head? ≠ some '\'' → n.toList ≠ '\'' :: (a ++ ' ' :: base) := by
    rintro n hn heq
    rw [heq] at hn
    exact hn rfl
  have hnames : ∀ names ∈ lookedInto, ∀ n ∈ names, n.toList.head? ≠ some '\'' := by decide
  have hwords : ∀ w ∈ typeWords, ∀ n ∈ w.2, n.toList.head? ≠ some '\'' := by decide
  have hword : typeWord? ('\'' :: (a ++ ' ' :: base)) = none := by
    rw [typeWord?, Option.map_eq_none_iff]
    refine List.find?_eq_none.2 fun w hw hany => ?_
    obtain ⟨n, hn, heq⟩ := List.any_eq_true.1 hany
    exact hquoted n (hwords w hw n hn) (beq_iff_eq.1 heq)
  have hread := fieldFrom_eq_base constants name (t := lifetimed a t) (lifetimed a t).length hbase
    (by rw [hself]; simp) fun names hmem n hn => hquoted n (hnames names hmem n hn)
  have hplain : fieldOfBase constants name (dereferenced (lifetimed a t)) =
      .plain name (.unresolved (String.ofList ('\'' :: (a ++ ' ' :: base)))) := by
    simp only [fieldOfBase, hbase, hconstant, hword]
  rwa [hplain] at hread

end HasName

end Braced

end Concord.Source
