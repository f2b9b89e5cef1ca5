/-
Type hints in layers. A reader takes layers off a hint before it looks at the type inside, and a
strategy for types peels layers off once more; on hints that are built of layers around a type the
two agree on the type and on whether there may be no value (`Layered.unwrap_eq`,
`Layered.peel_eq`).
-/
import Concord.Proofs.Typing.Peel
import Concord.Source.Indented.Model

namespace Concord.Source.Indented

open Text Code Typing

/-! ## Fuel -/

theorem length_lt_of_argumentOf? {names : List String} {t inner : Text}
    (h : argumentOf? names t = some inner) : inner.length < t.length := by
  unfold argumentOf? at h
  split at h
  · cases h
  · rename_i head rest hcut
    split at h
    · cases h
      exact length_trim_take_lt hcut _
    · cases h

theorem length_lt_of_dropSuffix? {p t u : Text} (hp : p ≠ []) (h : dropSuffix? p t = some u) :
    (trim u).length < t.length := by
  rw [dropSuffix?] at h
  split at h
  · rename_i hsuffix
    cases h
    have hlength := (List.isSuffixOf_iff_suffix.1 hsuffix).length_le
    have hpos := List.length_pos_iff.2 hp
    have htrim := length_trim_le (t.take (t.length - p.length))
    rw [List.length_take] at htrim
    omega
  · cases h

/-- What is inside a layer is shorter. -/
theorem length_lt_of_unwrapOnce? {t u : Text} {nullable : Bool}
    (h : unwrapOnce? t = some (u, nullable)) : u.length < t.length := by
  unfold unwrapOnce? at h
  split at h
  · rename_i hmapped
    cases h
    exact length_lt_of_argumentOf? hmapped
  split at h
  · rename_i hoptional
    cases h
    exact length_lt_of_argumentOf? hoptional
  split at h
  · rename_i rest hsuffix
    cases h
    rcases Option.or_eq_some_iff.1 hsuffix with hsuffix | ⟨-, hsuffix⟩
    · exact length_lt_of_dropSuffix? (by decide) hsuffix
    · exact length_lt_of_dropSuffix? (by decide) hsuffix
  · obtain ⟨rest, hfront, heq⟩ := Option.map_eq_some_iff.1 h
    cases heq
    have htrim := length_trim_le rest
    have htext := congrArg List.length (dropPrefix?_eq_some_iff.1 hfront)
    rw [List.length_append] at htext
    have hlength : "None |".toList.length = 6 := by decide
    omega

/-- As much fuel as characters is enough fuel. -/
theorem unwrapFrom_fuel {n m : Nat} {t : Text} (hn : t.length ≤ n) (hm : t.length ≤ m) :
    unwrapFrom n t = unwrapFrom m t := by
  induction n generalizing m t with
  | zero =>
    obtain rfl := List.length_eq_zero_iff.1 (Nat.le_zero.1 hn)
    cases m <;> rfl
  | succ n ih =>
    cases hstep : unwrapOnce? t with
    | none => cases m <;> simp [unwrapFrom, hstep]
    | some layer =>
      obtain ⟨u, nullable⟩ := layer
      have hlt := length_lt_of_unwrapOnce? hstep
      obtain ⟨m, rfl⟩ : ∃ k, m = k + 1 := ⟨m - 1, by omega⟩
      simp only [unwrapFrom, hstep]
      rw [ih (m := m) (by omega) (by omega)]

theorem unwrap_trim (t : Text) : unwrap (trim t) = unwrap t := by
  unfold unwrap
  rw [trim_trim]

theorem unwrap_of_trimmed {t : Text} (ht : trim t = t) : unwrap t = unwrapFrom t.length t := by
  unfold unwrap
  rw [ht]

/-- A hint is unwrapped as what is inside its outer layer. -/
theorem unwrap_of_once {t u : Text} {nullable : Bool} (ht : trim t = t)
    (h : unwrapOnce? t = some (u, nullable)) (hu : trim u = u) :
    unwrap t = ((unwrap u).1, nullable || (unwrap u).2) := by
  have hlt := length_lt_of_unwrapOnce? h
  obtain ⟨n, hn⟩ : ∃ n, t.length = n + 1 := ⟨t.length - 1, by omega⟩
  rw [unwrap_of_trimmed ht, unwrap_of_trimmed hu, hn, unwrapFrom, h]
  dsimp only
  rw [unwrapFrom_fuel (m := u.length) (by omega) (Nat.le_refl _)]

theorem unwrap_of_none {t : Text} (ht : trim t = t) (h : unwrapOnce? t = none) :
    unwrap t = (t, false) := by
  rw [unwrap_of_trimmed ht]
  cases t.length with
  | zero => rfl
  | succ n => rw [unwrapFrom, h]

/-! ## Layers -/

theorem argumentOf?_squared {outer : Text} (h : IsName outer) (inner : Text) (names : List String) :
    argumentOf? names (squared outer inner) =
      if names.any (fun n => n.toList == outer) then some (trim inner) else none := by
  have hcut : cut? ['['] (squared outer inner) = some (outer, inner ++ [']']) :=
    cut?_char (h.not_mem (by decide)) _
  have hends : endsWith (squared outer inner) [']'] = true := by
    rw [endsWith_char, squared, List.getLast?_append_of_ne_nil _ (List.cons_ne_nil _ _),
      getLast?_group]
  simp [argumentOf?, hcut, hends, h.trim_self]

/-- A mapped type is unwrapped as the type, whatever it is. -/
theorem unwrap_mapped (t : Text) : unwrap (squared "Mapped".toList t) = unwrap t := by
  have hname : IsName "Mapped".toList := by decide
  have honce : unwrapOnce? (squared "Mapped".toList t) = some (trim t, false) := by
    rw [unwrapOnce?, argumentOf?_squared hname, if_pos (by decide)]
  rw [unwrap_of_once (hname.unmarked_squared t).trimmed honce (trim_trim t), unwrap_trim,
    Bool.false_or]

theorem unwrap_optional (t : Text) :
    unwrap (squared "Optional".toList t) = ((unwrap t).1, true) := by
  have hname : IsName "Optional".toList := by decide
  have honce : unwrapOnce? (squared "Optional".toList t) = some (trim t, true) := by
    rw [unwrapOnce?, argumentOf?_squared hname, if_neg (by decide)]
    dsimp only
    rw [argumentOf?_squared hname, if_pos (by decide)]
  rw [unwrap_of_once (hname.unmarked_squared t).trimmed honce (trim_trim t), unwrap_trim,
    Bool.true_or]

theorem dropSuffix?_append (p t : Text) : dropSuffix? p (t ++ p) = some t := by
  rw [dropSuffix?, if_pos (List.isSuffixOf_iff_suffix.2 (List.suffix_append t p))]
  simp

theorem unwrap_orNone {t : Text} (ht : trim t = t)
    (htrim : trim (union t "None".toList) = union t "None".toList) :
    unwrap (union t "None".toList) = ((unwrap t).1, true) := by
  have hends : endsWith (union t "None".toList) [']'] = false := by
    rw [← Bool.not_eq_true, endsWith_char, union, List.getLast?_append_of_ne_nil _ (by decide)]
    decide
  have hargument : ∀ names, argumentOf? names (union t "None".toList) = none := by
    intro names
    unfold argumentOf?
    split
    · rfl
    · rw [hends]
      rfl
  have hsuffix : dropSuffix? "| None".toList (union t "None".toList) = some (t ++ [' ']) := by
    have htext : union t "None".toList = (t ++ [' ']) ++ "| None".toList := by simp [union]
    rw [htext, dropSuffix?_append]
  have hpad : trim (t ++ [' ']) = t := by
    have hpad := trim_pad (u := []) (v := [' ']) ht (by simp) (by decide)
    rwa [List.nil_append] at hpad
  have honce : unwrapOnce? (union t "None".toList) = some (t, true) := by
    rw [unwrapOnce?, hargument]
    dsimp only
    rw [hargument]
    dsimp only
    rw [hsuffix, Option.some_or]
    dsimp only
    rw [hpad]
  rw [unwrap_of_once htrim honce ht, Bool.true_or]

/-- A text with one bar has no other end that begins with a bar. -/
theorem dropSuffix?_bar {x y s : Text} (hx : '|' ∉ x) (hy : '|' ∉ y) (hne : y ≠ s) :
    dropSuffix? ('|' :: s) (x ++ '|' :: y) = none := by
  rw [dropSuffix?, if_neg]
  intro hsuffix
  obtain ⟨v, hv⟩ := List.isSuffixOf_iff_suffix.1 hsuffix
  have hcut := cut?_char hx y
  rw [← hv] at hcut
  by_cases hmem : '|' ∈ v
  · obtain ⟨v₁, v₂, rfl, hfree⟩ := List.eq_append_cons_of_mem hmem
    rw [List.append_assoc, List.cons_append, cut?_char hfree] at hcut
    cases hcut
    exact hy (by simp)
  · rw [cut?_char hmem] at hcut
    cases hcut
    exact hne rfl

theorem argumentOf?_noneOr (t : Text) {names : List String}
    (h : ∀ n ∈ names, n.toList.head? ≠ some 'N') :
    argumentOf? names (union "None".toList t) = none := by
  unfold argumentOf?
  split
  · rfl
  · rename_i head rest hcut
    have hhead : ∃ u, head = 'N' :: u := by
      rw [cut?_char_eq_some hcut]
      exact ⟨_, List.takeWhile_cons_of_pos (by decide)⟩
    obtain ⟨u, rfl⟩ := hhead
    have htrim : (trim ('N' :: u)).head? = some 'N' := by
      rw [trim, trimStart_of_head (by rintro c ⟨⟩; decide), trimEnd,
        dropEndWhile_cons_of_neg (by decide)]
      rfl
    rw [if_neg]
    rw [Bool.and_eq_true, not_and, List.any_eq_true]
    rintro - ⟨n, hn, heq⟩
    exact h n hn (beq_iff_eq.1 heq ▸ htrim)

theorem unwrap_noneOr {t : Text} (ht : trim t = t) (hbar : '|' ∉ t) (hne : t ≠ "None".toList)
    (htrim : trim (union "None".toList t) = union "None".toList t) :
    unwrap (union "None".toList t) = ((unwrap t).1, true) := by
  have hbars : '|' ∉ "None ".toList ∧ '|' ∉ ' ' :: t := ⟨by decide, by simp [hbar]⟩
  have hsuffix : dropSuffix? "| None".toList (union "None".toList t) = none :=
    dropSuffix?_bar (y := ' ' :: t) (s := " None".toList) hbars.1 hbars.2 (by simpa using hne)
  have hsuffix' : dropSuffix? "|None".toList (union "None".toList t) = none :=
    dropSuffix?_bar (y := ' ' :: t) (s := "None".toList) hbars.1 hbars.2 (by simp)
  have hfront : dropPrefix? "None |".toList (union "None".toList t) = some (' ' :: t) :=
    dropPrefix?_append "None |".toList (' ' :: t)
  have honce : unwrapOnce? (union "None".toList t) = some (t, true) := by
    rw [unwrapOnce?, argumentOf?_noneOr t (by decide)]
    dsimp only
    rw [argumentOf?_noneOr t (by decide)]
    dsimp only
    rw [hsuffix, hsuffix', Option.none_or]
    dsimp only
    rw [hfront, Option.map_some, trim_cons_space ht]
  rw [unwrap_of_once htrim honce ht, Bool.true_or]

theorem dropSuffix?_of_last {p t : Text} {c d : Char} (hp : p.getLast? = some c)
    (ht : t.getLast? = some d) (hne : c ≠ d) : dropSuffix? p t = none := by
  rw [dropSuffix?, if_neg]
  intro hsuffix
  obtain ⟨u, rfl⟩ := List.isSuffixOf_iff_suffix.1 hsuffix
  rw [getLast?_append_some hp] at ht
  cases ht
  exact hne rfl

/-- A reader takes nothing off other wrappers. -/
theorem unwrapOnce?_squared {outer : Text} (h : IsName outer)
    (hother : ["Mapped", "sqlalchemy.orm.Mapped", "Optional", "typing.Optional"].all
      (·.toList != outer)) (inner : Text) : unwrapOnce? (squared outer inner) = none := by
  have hnames : ∀ n ∈ ["Mapped", "sqlalchemy.orm.Mapped", "Optional", "typing.Optional"],
      n.toList ≠ outer := by simpa using hother
  have hargument : ∀ names : List String, (∀ n ∈ names, n.toList ≠ outer) →
      argumentOf? names (squared outer inner) = none := by
    intro names hnone
    rw [argumentOf?_squared h, if_neg]
    simpa using hnone
  have hlast : (squared outer inner).getLast? = some ']' := by
    rw [squared, List.getLast?_append_of_ne_nil _ (List.cons_ne_nil _ _), getLast?_group]
  have hfront : dropPrefix? "None |".toList (squared outer inner) = none := by
    rw [squared, dropPrefix?_append_cons (by decide),
      dropPrefix?_of_not_mem (c := ' ') (by decide) (h.not_mem (by decide))]
    rfl
  have hmapped := hargument ["Mapped", "sqlalchemy.orm.Mapped"] fun n hn =>
    hnames n (List.mem_append_left ["Optional", "typing.Optional"] hn)
  have hoptional := hargument ["Optional", "typing.Optional"] fun n hn =>
    hnames n (List.mem_append_right ["Mapped", "sqlalchemy.orm.Mapped"] hn)
  rw [unwrapOnce?, hmapped]
  dsimp only
  rw [hoptional]
  dsimp only
  rw [dropSuffix?_of_last (c := 'e') (by decide) hlast (by decide),
    dropSuffix?_of_last (c := 'e') (by decide) hlast (by decide), hfront]
  rfl

/-! ## Hints in layers -/

/-- A closed hint without a comma at its top level. -/
structure Tidy (t : Text) : Prop where
  trimmed : trim t = t
  ne_nil : t ≠ []
  closed : Closed t
  single : TopAll (· != ',') t

theorem Tidy.squared {outer inner : Text} (h : IsName outer) (hinner : Closed inner) :
    Tidy (squared outer inner) where
  trimmed := (h.unmarked_squared inner).trimmed
  ne_nil := by simp [Typing.squared]
  closed := h.bare.closed_squared hinner
  single := h.bare.topAll_squared hinner (by decide) (by decide)

theorem peel_layer {hint : Text} (h : Tidy hint) (outer : String) (hname : IsName outer.toList)
    (hcollection : Wrappers.python.collections.contains outer.toList = false)
    (hthrough : (Wrappers.python.nullable ++ Wrappers.python.transparent).contains outer.toList = true) :
    Wrappers.python.peel (squared outer.toList hint) =
      (Wrappers.python.peel hint).within (Wrappers.python.nullable.contains outer.toList) :=
  peel_squared hname h.closed h.ne_nil (firstArgument_single h.single h.closed) h.trimmed
    hcollection hthrough

theorem Tidy.union {a b : Text} (ha : Tidy a) (hb : Tidy b) : Tidy (union a b) where
  trimmed := by
    refine trim_eq_self_iff.2 ⟨fun c hc => ?_, fun c hc => ?_⟩
    · obtain ⟨d, u, rfl⟩ := List.exists_cons_of_ne_nil ha.ne_nil
      exact (trim_eq_self_iff.1 ha.trimmed).1 c hc
    · rw [Typing.union, List.getLast?_append_of_ne_nil _ hb.ne_nil] at hc
      exact (trim_eq_self_iff.1 hb.trimmed).2 c hc
  ne_nil := by simp [Typing.union]
  closed := (ha.closed.append (by decide) (.inr (by decide))).append hb.closed
    (.inl (by rw [List.getLast?_append_of_ne_nil _ (by decide)]; decide))
  single := (ha.single.append (by decide) ha.closed (.inr (by decide))).append hb.single
    (ha.closed.append (by decide) (.inr (by decide)))
    (.inl (by rw [List.getLast?_append_of_ne_nil _ (by decide)]; decide))

/-- A hint with layers around a type, of which some may allow for no value. -/
inductive Layered : (hint type : Text) → (nullable : Bool) → Prop
  | type {t : Text} (htidy : Tidy t) (hnone : unwrapOnce? t = none) : Layered t t false
  | mapped {h t : Text} {nullable : Bool} (hinner : Layered h t nullable) :
    Layered (squared "Mapped".toList h) t nullable
  | optional {h t : Text} {nullable : Bool} (hinner : Layered h t nullable) :
    Layered (squared "Optional".toList h) t true
  | orNone {h t : Text} {nullable : Bool} (hinner : Layered h t nullable)
    (hbar : TopAll (· != '|') h) (hne : h ≠ "None".toList)
    (hunmarked : Unmarked (union h "None".toList)) : Layered (union h "None".toList) t true
  | noneOr {h t : Text} {nullable : Bool} (hinner : Layered h t nullable) (hbar : '|' ∉ h)
    (hne : h ≠ "None".toList) : Layered (union "None".toList h) t true

theorem tidy_none : Tidy "None".toList := ⟨by decide, by decide, by decide, by decide⟩

namespace Layered

variable {h t : Text} {nullable : Bool}

theorem tidy (hlayered : Layered h t nullable) : Tidy h := by
  induction hlayered with
  | type htidy hnone => exact htidy
  | mapped hinner ih => exact .squared (by decide) ih.closed
  | optional hinner ih => exact .squared (by decide) ih.closed
  | orNone hinner hbar hne hunmarked ih => exact ih.union tidy_none
  | noneOr hinner hbar hne ih => exact tidy_none.union ih

/-- A reader takes off all layers. -/
theorem unwrap_eq (hlayered : Layered h t nullable) : unwrap h = (t, nullable) := by
  induction hlayered with
  | type htidy hnone => exact unwrap_of_none htidy.trimmed hnone
  | mapped hinner ih => rw [unwrap_mapped, ih]
  | optional hinner ih => rw [unwrap_optional, ih]
  | orNone hinner hbar hne hunmarked ih =>
    rw [unwrap_orNone hinner.tidy.trimmed hunmarked.trimmed, ih]
  | noneOr hinner hbar hne ih =>
    rw [unwrap_noneOr hinner.tidy.trimmed hbar hne (tidy_none.union hinner.tidy).trimmed, ih]

theorem not_absent (hne : h ≠ "None".toList) : h ∉ Wrappers.python.absent := by
  have habsent : Wrappers.python.absent = ["None".toList] := rfl
  rwa [habsent, List.mem_singleton]

/-- Peeling takes off all layers. -/
theorem peel_eq (hlayered : Layered h t nullable) :
    Wrappers.python.peel h = (Wrappers.python.peel t).within nullable := by
  induction hlayered with
  | type htidy hnone => simp [Peeled.within]
  | mapped hinner ih =>
    have hpeel := peel_layer hinner.tidy "Mapped" (by decide) (by decide) (by decide)
    have hrequired : Wrappers.python.nullable.contains "Mapped".toList = false := by decide
    rw [hpeel, hrequired, ih]
    simp [Peeled.within]
  | optional hinner ih =>
    have hpeel := peel_layer hinner.tidy "Optional" (by decide) (by decide) (by decide)
    have hnullable : Wrappers.python.nullable.contains "Optional".toList = true := by decide
    rw [hpeel, hnullable, ih]
    simp [Peeled.within]
  | @orNone h t _ hinner hbar hne hunmarked ih =>
    have htidy := hinner.tidy
    have hsplit : splitTop '|' (union h "None".toList) = [] ++ h :: ["None".toList] :=
      splitTop_union htidy.closed hbar (by decide) htidy.trimmed tidy_none.trimmed htidy.ne_nil
        tidy_none.ne_nil
    have hstep := step_union (w := .python) hunmarked hsplit (by simp) (by decide) (not_absent hne)
    rw [peel_of_more hunmarked.trimmed htidy.trimmed hstep, ih]
    simp [Peeled.within]
  | @noneOr h t _ hinner hbar hne ih =>
    have htidy := hinner.tidy
    have hsplit : splitTop '|' (union "None".toList h) = ["None".toList] ++ h :: [] :=
      splitTop_union tidy_none.closed (by decide) (topAll_of_not_mem hbar) tidy_none.trimmed
        htidy.trimmed tidy_none.ne_nil htidy.ne_nil
    have hunmarked : Unmarked (union "None".toList h) :=
      ⟨(tidy_none.union htidy).trimmed, by rintro c ⟨⟩; decide, rfl⟩
    have hstep := step_union (w := .python) hunmarked hsplit (by simp) (by decide) (not_absent hne)
    rw [peel_of_more hunmarked.trimmed htidy.trimmed hstep, ih]
    simp [Peeled.within]

end Layered

end Concord.Source.Indented
