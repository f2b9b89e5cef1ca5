/-
The receivers that a text loses. A receiver stands at a place of the code where no name or path goes
on; what is dropped is exactly what such receivers cover, none of them overlaps another, and
nothing of a literal is covered (`withoutReceivers_exact`).
-/
import Concord.Guard
import Concord.Proofs.Code.Closed
import Concord.Proofs.Text.Cut

namespace Concord.Guard

open Text Code

/-- Whether the place `i` of a text is code, and not part of a literal. -/
def isCodeAt (t : Text) (i : Nat) : Bool := ((scan t)[i]?.bind Cell.depth).isSome

/-- The receiver `r` stands at the place `i`: it begins there in code, and no name or path before it
goes on. -/
structure StandsAt (t : Text) (i : Nat) (r : Text) : Prop where
  receiver : r ∈ receivers
  begins : startsWith (t.drop i) r = true
  code : isCodeAt t i = true
  unjoined : (t.take i).getLast?.any joins = false

instance (t : Text) (i : Nat) (r : Text) : Decidable (StandsAt t i r) :=
  decidable_of_iff (receivers.contains r = true ∧ startsWith (t.drop i) r = true ∧ isCodeAt t i = true ∧
      (t.take i).getLast?.any joins = false)
    ⟨fun ⟨h₁, h₂, h₃, h₄⟩ => ⟨List.contains_iff_mem.1 h₁, h₂, h₃, h₄⟩,
      fun ⟨h₁, h₂, h₃, h₄⟩ => ⟨List.contains_iff_mem.2 h₁, h₂, h₃, h₄⟩⟩

/-- The place `i` belongs to a receiver that stands in the text. -/
def Covered (t : Text) (i : Nat) : Prop := ∃ j ≤ i, ∃ r ∈ receivers, StandsAt t j r ∧ i < j + r.length

instance (t : Text) (i : Nat) : Decidable (Covered t i) :=
  inferInstanceAs (Decidable (∃ j ≤ i, ∃ r ∈ receivers, StandsAt t j r ∧ i < j + r.length))

/-- The characters of a text, from the place `i` on, that no receiver covers. -/
def uncoveredFrom (t : Text) (i : Nat) : Text :=
  (((t.drop i).zipIdx i).filter fun p => ¬ Covered t p.2).map Prod.fst

/-! ## Receivers as words -/

theorem receivers_words : ∀ r ∈ receivers, r ≠ [] ∧ ∀ c ∈ r, isPlain c = true ∧ joins c = true := by decide

theorem receivers_distinct : ∀ r ∈ receivers, ∀ s ∈ receivers, r <+: s → r = s := by decide

/-- A text begins with at most one receiver. -/
theorem receiver_unique {t r s : Text} (hr : r ∈ receivers) (hs : s ∈ receivers)
    (htr : startsWith t r = true) (hts : startsWith t s = true) : r = s := by
  rw [startsWith, List.isPrefixOf_iff_prefix] at htr hts
  rcases List.prefix_or_prefix_of_prefix htr hts with h | h
  · exact receivers_distinct r hr s hs h
  · exact (receivers_distinct s hs r hr h).symm

theorem find?_receivers_eq_some_iff {t r : Text} :
    receivers.find? (startsWith t) = some r ↔ r ∈ receivers ∧ startsWith t r = true := by
  constructor
  · intro h
    exact ⟨List.mem_of_find?_eq_some h, List.find?_some h⟩
  · rintro ⟨hr, htr⟩
    cases h : receivers.find? (startsWith t) with
    | none => exact absurd htr (List.find?_eq_none.1 h r hr)
    | some s => rw [receiver_unique (List.mem_of_find?_eq_some h) hr (List.find?_some h) htr]

/-! ## Places -/

/-- A plain character after code is code, and so is what follows it. -/
theorem quote_plain {k : Cursor} (hk : k.quote = none) {c : Char} (hc : isPlain c = true) :
    (k.cell c).depth.isSome = true ∧ (k.next c).quote = none := by
  obtain ⟨hquote, hopening, hclosing⟩ := isPlain_iff.1 hc
  have hopens : k.opens c = false := by
    rw [← Bool.not_eq_true]
    exact fun h => Bool.eq_false_iff.1 hquote (isQuote_of_opens h)
  simp [Cursor.cell, Cursor.next, hk, hopens, hopening, hclosing]

theorem quote_plains {k : Cursor} (hk : k.quote = none) {w : Text} (hw : ∀ c ∈ w, isPlain c = true) :
    (k.after w).quote = none := by
  induction w generalizing k with
  | nil => exact hk
  | cons c w ih => exact ih (quote_plain hk (hw c (by simp))).2 fun d hd => hw d (by simp [hd])

theorem after_append (k : Cursor) (a b : Text) : k.after (a ++ b) = (k.after a).after b := List.foldl_append

theorem isCodeAt_append (x : Text) (c : Char) (y : Text) :
    isCodeAt (x ++ c :: y) x.length = ((Cursor.start.after x).cell c).depth.isSome := by
  have hscan : scan (x ++ c :: y) = scan x ++ scanFrom (Cursor.start.after x) (c :: y) :=
    scanFrom_append .start x (c :: y)
  rw [isCodeAt, hscan, List.getElem?_append_right (by simp)]
  simp [scanFrom]

theorem isCodeAt_plain {x : Text} {c : Char} (hc : isPlain c = true) (y : Text) :
    isCodeAt (x ++ c :: y) x.length = true ↔ (Cursor.start.after x).quote = none := by
  rw [isCodeAt_append]
  constructor
  · intro h
    cases hquote : (Cursor.start.after x).quote with
    | none => rfl
    | some q => simp [Cursor.cell, hquote] at h
  · intro h
    exact (quote_plain h hc).1

/-- Where a receiver stands, by what is before the place and after it. -/
theorem standsAt_append_iff {x y r : Text} : StandsAt (x ++ y) x.length r ↔
    r ∈ receivers ∧ startsWith y r = true ∧ (Cursor.start.after x).quote = none ∧
      x.getLast?.any joins = false := by
  constructor
  · rintro ⟨hr, hbegins, hcode, hjoin⟩
    rw [List.drop_left] at hbegins
    rw [List.take_left] at hjoin
    refine ⟨hr, hbegins, ?_, hjoin⟩
    obtain ⟨hne, hchars⟩ := receivers_words r hr
    obtain ⟨u, rfl⟩ := startsWith_iff.1 hbegins
    obtain ⟨c, r, rfl⟩ := List.exists_cons_of_ne_nil hne
    exact (isCodeAt_plain (hchars c (by simp)).1 _).1 hcode
  · rintro ⟨hr, hbegins, hcode, hjoin⟩
    refine ⟨hr, by rwa [List.drop_left], ?_, by rwa [List.take_left]⟩
    obtain ⟨hne, hchars⟩ := receivers_words r hr
    obtain ⟨u, rfl⟩ := startsWith_iff.1 hbegins
    obtain ⟨c, r, rfl⟩ := List.exists_cons_of_ne_nil hne
    exact (isCodeAt_plain (hchars c (by simp)).1 _).2 hcode

namespace StandsAt

variable {t r s : Text} {i j : Nat}

/-- The text around a receiver that stands in it. -/
theorem exists_split (h : StandsAt t i r) :
    ∃ x y, t = x ++ (r ++ y) ∧ x.length = i ∧ (Cursor.start.after x).quote = none := by
  obtain ⟨y, hy⟩ := startsWith_iff.1 h.begins
  have hlt : i ≤ t.length := by
    rw [← Nat.not_lt]
    intro hlt
    have hne := (receivers_words r h.receiver).1
    rw [List.drop_eq_nil_of_le (Nat.le_of_lt hlt)] at hy
    simp_all
  have hlength : (t.take i).length = i := by rw [List.length_take, Nat.min_eq_left hlt]
  have hsplit : t = t.take i ++ (r ++ y) := by rw [← hy, List.take_append_drop]
  refine ⟨t.take i, y, hsplit, hlength, ?_⟩
  have hstands : StandsAt (t.take i ++ (r ++ y)) (t.take i).length r := by rwa [← hsplit, hlength]
  exact (standsAt_append_iff.1 hstands).2.2.1

theorem eq_of_place (h : StandsAt t i r) (h' : StandsAt t i s) : r = s :=
  receiver_unique h.receiver h'.receiver h.begins h'.begins

/-- After a receiver has begun, none stands before it has ended. -/
theorem lt_of_lt (h : StandsAt t i r) (h' : StandsAt t j s) (hij : i < j) : i + r.length < j := by
  rw [← Nat.not_le]
  intro hle
  obtain ⟨x, y, rfl, rfl, -⟩ := h.exists_split
  -- the character before the second receiver is one of the first
  have hlast : ((x ++ (r ++ y)).take j).getLast? = r[j - x.length - 1]? := by
    rw [List.getLast?_eq_getElem?, List.length_take, List.getElem?_take_of_lt (by simp; omega),
      List.getElem?_append_right (by simp; omega), List.getElem?_append_left (by simp; omega)]
    congr 1
    simp
    omega
  have hjoin := h'.unjoined
  rw [hlast, List.getElem?_eq_getElem (by omega), Option.any_some] at hjoin
  exact Bool.eq_false_iff.1 hjoin ((receivers_words r h.receiver).2 _ (List.getElem_mem _)).2

/-- All of a receiver is code. -/
theorem isCodeAt_of_covered (h : StandsAt t i r) (hij : i ≤ j) (hj : j < i + r.length) :
    isCodeAt t j = true := by
  obtain ⟨x, y, rfl, rfl, hquote⟩ := h.exists_split
  have hplain : ∀ c ∈ r, isPlain c = true := fun c hc => ((receivers_words r h.receiver).2 c hc).1
  obtain ⟨k, hk, rfl⟩ : ∃ k < r.length, j = x.length + k := ⟨j - x.length, by omega, by omega⟩
  have hsplit : x ++ (r ++ y) = (x ++ r.take k) ++ r[k] :: (r.drop (k + 1) ++ y) := by
    have hr : r = r.take k ++ r[k] :: r.drop (k + 1) := by
      rw [List.getElem_cons_drop, List.take_append_drop]
    rw [List.append_assoc, ← List.cons_append, ← List.append_assoc (r.take k), ← hr]
  have hlength : (x ++ r.take k).length = x.length + k := by simp; omega
  rw [hsplit, ← hlength, isCodeAt_plain (hplain _ (List.getElem_mem hk)), after_append]
  exact quote_plains hquote fun c hc => hplain c (List.mem_of_mem_take hc)

end StandsAt

theorem covered_iff {t : Text} {i : Nat} :
    Covered t i ↔ ∃ j r, StandsAt t j r ∧ j ≤ i ∧ i < j + r.length := by
  constructor
  · rintro ⟨j, hj, r, -, h, hi⟩
    exact ⟨j, r, h, hj, hi⟩
  · rintro ⟨j, r, h, hj, hi⟩
    exact ⟨j, hj, r, h.receiver, h, hi⟩

/-! ## Dropping -/

/-- What is left of `y` where it stands after `x`. -/
def dropAfter (x y : Text) : Text := dropReceivers x.getLast? 0 y (scanFrom (Cursor.start.after x) y)

/-- The search at a place finds the receiver that stands there. -/
theorem found_iff {x y r : Text} {c : Char} :
    (if ((Cursor.start.after x).cell c).depth.isSome && !(x.getLast?.any joins) then
        receivers.find? (startsWith (c :: y)) else none) = some r ↔
      StandsAt (x ++ c :: y) x.length r := by
  have hcell := isCodeAt_append x c y
  constructor
  · intro h
    split at h
    · rename_i hplace
      obtain ⟨hcode, hjoin⟩ := Bool.and_eq_true_iff.1 hplace
      obtain ⟨hr, hbegins⟩ := find?_receivers_eq_some_iff.1 h
      refine ⟨hr, by rwa [List.drop_left], by rwa [hcell], ?_⟩
      rw [List.take_left]
      simpa using hjoin
    · cases h
  · rintro ⟨hr, hbegins, hcode, hjoin⟩
    rw [List.drop_left] at hbegins
    rw [List.take_left] at hjoin
    rw [hcell] at hcode
    rw [hcode, hjoin, Bool.not_false, Bool.and_self, if_pos rfl]
    exact find?_receivers_eq_some_iff.2 ⟨hr, hbegins⟩

theorem dropReceivers_skip (w y : Text) (prev : Option Char) (k : Cursor) :
    dropReceivers prev w.length (w ++ y) (scanFrom k (w ++ y)) =
      dropReceivers (w.getLast?.or prev) 0 y (scanFrom (k.after w) y) := by
  induction w generalizing prev k with
  | nil => rfl
  | cons c w ih =>
    rw [List.cons_append, List.length_cons, scanFrom, dropReceivers, ih]
    congr 1
    simp [List.getLast?_cons]

/-- A receiver that stands at the place goes. -/
theorem dropAfter_receiver {x y r : Text} (h : StandsAt (x ++ (r ++ y)) x.length r) :
    dropAfter x (r ++ y) = dropAfter (x ++ r) y := by
  obtain ⟨c, w, rfl⟩ := List.exists_cons_of_ne_nil (receivers_words r h.receiver).1
  rw [List.cons_append] at h
  have hfound := found_iff.2 h
  rw [dropAfter, List.cons_append, scanFrom, dropReceivers, hfound, dropAfter, after_append]
  simp only [List.length_cons, Nat.add_sub_cancel]
  rw [dropReceivers_skip]
  congr 1
  simp [List.getLast?_cons]

/-- Where no receiver stands, the character stays. -/
theorem dropAfter_cons {x y : Text} {c : Char} (h : ∀ r, ¬ StandsAt (x ++ c :: y) x.length r) :
    dropAfter x (c :: y) = c :: dropAfter (x ++ [c]) y := by
  have hnone : (if ((Cursor.start.after x).cell c).depth.isSome && !(x.getLast?.any joins) then
      receivers.find? (startsWith (c :: y)) else none) = none := by
    rw [Option.eq_none_iff_forall_ne_some]
    exact fun r hr => h r (found_iff.1 hr)
  rw [dropAfter, scanFrom, dropReceivers, hnone, dropAfter, after_append, List.getLast?_concat]
  rfl

theorem uncoveredFrom_cons (x y : Text) (c : Char) : uncoveredFrom (x ++ c :: y) x.length =
    if Covered (x ++ c :: y) x.length then uncoveredFrom (x ++ c :: y) (x.length + 1)
    else c :: uncoveredFrom (x ++ c :: y) (x.length + 1) := by
  have hrest : (x ++ c :: y).drop (x.length + 1) = y := by simp [List.drop_append]
  rw [uncoveredFrom, uncoveredFrom, List.drop_left, hrest, List.zipIdx_cons]
  by_cases h : Covered (x ++ c :: y) x.length <;> simp [h]

/-- Places that are all covered leave nothing. -/
theorem uncoveredFrom_append {x y w : Text}
    (h : ∀ i, x.length ≤ i → i < x.length + w.length → Covered (x ++ (w ++ y)) i) :
    uncoveredFrom (x ++ (w ++ y)) x.length = uncoveredFrom (x ++ (w ++ y)) (x ++ w).length := by
  induction w generalizing x with
  | nil => rw [List.append_nil]
  | cons c w ih =>
    have hshift : x ++ (c :: w ++ y) = x ++ [c] ++ (w ++ y) := by simp
    have hlength : (x ++ c :: w).length = (x ++ [c] ++ w).length := by simp
    have hcons := uncoveredFrom_cons x (w ++ y) c
    rw [← List.cons_append, if_pos (h _ (Nat.le_refl _) (by simp))] at hcons
    rw [hcons, hlength, hshift, ← ih, List.length_append, List.length_singleton]
    intro i hi hlt
    rw [← hshift]
    refine h i ?_ ?_
    · simp at hi
      omega
    · simp at hlt ⊢
      omega

/-- The whole run: if no receiver before a place reaches beyond it, what is left from there on is what
no receiver covers. -/
theorem dropAfter_eq (x y : Text)
    (hpast : ∀ j r, StandsAt (x ++ y) j r → j < x.length → j + r.length ≤ x.length) :
    dropAfter x y = uncoveredFrom (x ++ y) x.length := by
  match y with
  | [] => simp [dropAfter, dropReceivers, uncoveredFrom]
  | c :: y =>
    by_cases hstands : ∃ r, StandsAt (x ++ c :: y) x.length r
    · obtain ⟨r, hr⟩ := hstands
      obtain ⟨u, hu⟩ := startsWith_iff.1 hr.begins
      rw [List.drop_left] at hu
      have hne := List.length_pos_iff.2 (receivers_words r hr.receiver).1
      have hlength : u.length < (c :: y).length := by rw [hu, List.length_append]; omega
      rw [hu] at hr hpast ⊢
      rw [dropAfter_receiver hr, uncoveredFrom_append, ← List.append_assoc]
      · refine dropAfter_eq (x ++ r) u fun j s hs hj => ?_
        rw [List.append_assoc] at hs
        rw [List.length_append] at hj ⊢
        -- before the end of `r` there is what stood before it, and `r` itself
        rcases Nat.lt_trichotomy j x.length with hlt | rfl | hgt
        · have := hpast j s hs hlt
          omega
        · exact Nat.le_of_eq (by rw [hr.eq_of_place hs])
        · have := hr.lt_of_lt hs hgt
          omega
      · exact fun i hi hlt => covered_iff.2 ⟨x.length, r, hr, hi, hlt⟩
    · have hnone : ¬ Covered (x ++ c :: y) x.length := by
        rw [covered_iff]
        rintro ⟨j, r, hr, hj, hlt⟩
        rcases Nat.lt_or_eq_of_le hj with hless | rfl
        · have := hpast j r hr hless
          omega
        · exact hstands ⟨r, hr⟩
      have hshift : x ++ c :: y = x ++ [c] ++ y := by simp
      rw [dropAfter_cons fun r hr => hstands ⟨r, hr⟩, uncoveredFrom_cons, if_neg hnone, hshift,
        dropAfter_eq (x ++ [c]) y, List.length_append, List.length_singleton]
      intro j r hr hj
      rw [← hshift] at hr
      rw [List.length_append, List.length_singleton] at hj ⊢
      rcases Nat.lt_or_eq_of_le (Nat.lt_succ_iff.1 hj) with hless | rfl
      · have := hpast j r hr hless
        omega
      · exact absurd ⟨r, hr⟩ hstands
termination_by y.length
decreasing_by
  · exact hlength
  · exact Nat.lt_succ_self _

theorem withoutReceivers_eq (t : Text) : withoutReceivers t = uncoveredFrom t 0 :=
  dropAfter_eq [] t fun j _ _ hj => absurd hj (Nat.not_lt_zero j)

/-- **A text loses exactly what the receivers that stand in it cover.** Two of them never overlap, and
nothing that they cover belongs to a literal. -/
theorem withoutReceivers_exact (t : Text) :
    withoutReceivers t = (t.zipIdx.filter fun p => ¬ Covered t p.2).map Prod.fst ∧
      (∀ i j r s, StandsAt t i r → StandsAt t j s →
        i = j ∧ r = s ∨ i + r.length ≤ j ∨ j + s.length ≤ i) ∧
      ∀ i, Covered t i → isCodeAt t i = true := by
  refine ⟨withoutReceivers_eq t, ?_, ?_⟩
  · intro i j r s hr hs
    rcases Nat.lt_trichotomy i j with hlt | rfl | hgt
    · exact .inr (.inl (Nat.le_of_lt (hr.lt_of_lt hs hlt)))
    · exact .inl ⟨rfl, hr.eq_of_place hs⟩
    · exact .inr (.inr (Nat.le_of_lt (hs.lt_of_lt hr hgt)))
  · intro i h
    obtain ⟨j, r, hr, hj, hlt⟩ := covered_iff.1 h
    exact hr.isCodeAt_of_covered hj hlt

example : withoutReceivers "cls.rows[self.key] + other.self.x + 'this.y'".toList =
    "rows[key] + other.self.x + 'this.y'".toList := by decide

/-! ## Texts without receivers -/

theorem withoutReceivers_sublist (t : Text) : (withoutReceivers t).Sublist t := by
  have h := (List.filter_sublist (p := fun p => ¬ Covered t p.2) (l := t.zipIdx)).map Prod.fst
  rw [List.zipIdx_map_fst] at h
  rw [withoutReceivers_eq]
  exact h

/-- A text loses nothing exactly if no receiver stands in it. -/
theorem withoutReceivers_eq_self_iff {t : Text} : withoutReceivers t = t ↔ ∀ i r, ¬ StandsAt t i r := by
  rw [withoutReceivers_eq, uncoveredFrom, List.drop_zero]
  constructor
  · intro h i r hr
    have hlength := congrArg List.length h
    rw [List.length_map, ← List.length_zipIdx (l := t) (i := 0), List.length_filter_eq_length_iff] at hlength
    obtain ⟨x, y, rfl, rfl, -⟩ := hr.exists_split
    have hne := List.length_pos_iff.2 (receivers_words r hr.receiver).1
    have hlt : x.length < (x ++ (r ++ y)).length := by simp; omega
    have hmem : ((x ++ (r ++ y))[x.length], x.length) ∈ (x ++ (r ++ y)).zipIdx :=
      List.mem_zipIdx_iff_getElem?.2 (List.getElem?_eq_getElem hlt)
    have hfree := of_decide_eq_true (hlength _ hmem)
    exact hfree (covered_iff.2 ⟨_, r, hr, Nat.le_refl _, by omega⟩)
  · intro h
    have hfree : ∀ p ∈ t.zipIdx, decide (¬ Covered t p.2) = true := by
      intro p _
      rw [decide_eq_true_eq, covered_iff]
      rintro ⟨j, r, hr, -⟩
      exact h j r hr
    rw [List.filter_eq_self.2 hfree, List.zipIdx_map_fst]

/-- A receiver stands somewhere in a text that follows the character `p` of code. -/
def StandsAfter (p : Option Char) (t : Text) : Prop :=
  ∃ x r y, t = x ++ (r ++ y) ∧ r ∈ receivers ∧ ((Cursor.code 0 p).after x).quote = none ∧
    (x.getLast?.or p).any joins = false

theorem exists_standsAt_iff {t : Text} : (∃ i r, StandsAt t i r) ↔ StandsAfter none t := by
  constructor
  · rintro ⟨i, r, h⟩
    obtain ⟨x, y, rfl, rfl, hquote⟩ := h.exists_split
    have hjoin := (standsAt_append_iff.1 h).2.2.2
    exact ⟨x, r, y, rfl, h.receiver, hquote, by rwa [Option.or_none]⟩
  · rintro ⟨x, r, y, rfl, hr, hquote, hjoin⟩
    rw [Option.or_none] at hjoin
    exact ⟨x.length, r, standsAt_append_iff.2 ⟨hr, startsWith_append r y, hquote, hjoin⟩⟩

/-- The text begins with a receiver. -/
def Begins (t : Text) : Prop := ∃ r ∈ receivers, startsWith t r = true

/-- A step over a plain character. -/
theorem standsAfter_cons {p : Option Char} {c : Char} (hc : isPlain c = true) {t : Text} :
    StandsAfter p (c :: t) ↔ p.any joins = false ∧ Begins (c :: t) ∨ StandsAfter (some c) t := by
  have hnext := (Cursor.code_plain hc 0 p).1
  constructor
  · rintro ⟨x, r, y, heq, hr, hquote, hjoin⟩
    cases x with
    | nil => exact .inl ⟨hjoin, r, hr, startsWith_iff.2 ⟨y, heq⟩⟩
    | cons d x =>
      rw [List.cons_append, List.cons.injEq] at heq
      obtain ⟨rfl, rfl⟩ := heq
      rw [Cursor.after, List.foldl_cons, hnext] at hquote
      refine .inr ⟨x, r, y, rfl, hr, hquote, ?_⟩
      rw [List.getLast?_cons] at hjoin
      cases h : x.getLast? <;> simp_all
  · rintro (⟨hjoin, r, hr, hbegins⟩ | ⟨x, r, y, rfl, hr, hquote, hjoin⟩)
    · obtain ⟨y, hy⟩ := startsWith_iff.1 hbegins
      exact ⟨[], r, y, hy, hr, rfl, hjoin⟩
    · refine ⟨c :: x, r, y, rfl, hr, ?_, ?_⟩
      · rw [Cursor.after, List.foldl_cons, hnext]
        exact hquote
      · rw [List.getLast?_cons]
        cases h : x.getLast? <;> simp_all

/-- What stands before code counts for the literals in it only if it hides a quote. -/
theorem quote_after_fresh {p : Option Char} (hp : Fresh p) (x : Text) :
    ((Cursor.code 0 p).after x).quote = (Cursor.start.after x).quote := by
  cases x with
  | nil => rfl
  | cons c x =>
    have hopens := Cursor.opens_fresh (d := 0) hp c
    have hnext : (Cursor.code 0 p).next c = (Cursor.code 0 none).next c := by
      simp only [Cursor.next, hopens]
    rw [Cursor.after, List.foldl_cons, hnext]
    rfl

/-- A receiver that stands after something stands on its own as well. -/
theorem StandsAfter.alone {p : Option Char} (hp : Fresh p) {t : Text} (h : StandsAfter p t) :
    StandsAfter none t := by
  obtain ⟨x, r, y, rfl, hr, hquote, hjoin⟩ := h
  rw [quote_after_fresh hp] at hquote
  refine ⟨x, r, y, rfl, hr, hquote, ?_⟩
  cases h : x.getLast? <;> simp_all

/-- A receiver that stands on its own stands after something, unless it begins the text. -/
theorem StandsAfter.after {p : Option Char} (hp : Fresh p) {t : Text} (h : StandsAfter none t) :
    StandsAfter p t ∨ Begins t := by
  obtain ⟨x, r, y, rfl, hr, hquote, hjoin⟩ := h
  cases h : x.getLast? with
  | none =>
    rw [List.getLast?_eq_none_iff] at h
    exact .inr ⟨r, hr, by rw [h, List.nil_append]; exact startsWith_append r y⟩
  | some c =>
    refine .inl ⟨x, r, y, rfl, hr, by rwa [quote_after_fresh hp], ?_⟩
    rw [h] at hjoin ⊢
    exact hjoin

/-- A plain character that neither joins nor begins a receiver changes nothing. -/
theorem standsAfter_cons_apart {c : Char} (hplain : isPlain c = true) (hfresh : Fresh (some c))
    (hjoins : joins c = false) {t : Text} (hbegins : ¬ Begins (c :: t)) :
    StandsAfter none (c :: t) ↔ StandsAfter none t := by
  rw [standsAfter_cons hplain, or_iff_right fun h => hbegins h.2]
  constructor
  · exact StandsAfter.alone hfresh
  · intro h
    rcases h.after hfresh with h | ⟨r, hr, hr'⟩
    · exact h
    · obtain ⟨y, rfl⟩ := startsWith_iff.1 hr'
      exact ⟨[], r, y, rfl, hr, rfl, hjoins⟩

end Concord.Guard
