/-
Targets in the form in which they are compared. Letter case and blanks at the ends are gone for
good, but receivers are looked for only once, before the text is lowered and its marks are
dropped, and marks only before it is trimmed. So the form of a form is another one exactly if a
receiver or a mark comes to light behind what was taken away (`normalTarget_twice_iff`).
-/
import Concord.Equivalence.AssertionMatch
import Concord.Proofs.Guard.Receiver
import Concord.Proofs.Text.Case
import Concord.Proofs.Text.Sublist

namespace Concord.Equivalence

open Text Code Guard

/-- The marks of variables. -/
def variableMarks : List Text := ["@".toList, "v_".toList, "p_".toList]

/-- Nothing but marks of variables, one after the other. -/
def IsMarks (m : Text) : Prop := ∃ ws : List Text, (∀ w ∈ ws, w ∈ variableMarks) ∧ m = ws.flatten

/-- What is left of a target without its receivers, trimmed and in lower case. -/
def residue (t : Text) : Text := lower (trim (withoutReceivers (trim t)))

/-- A receiver or a mark comes to light in what is left of a target: a receiver that was hidden by
letter case or by what stood before it, a receiver behind marks, or a mark behind marks and blanks. -/
inductive Resurfaces (l : Text) : Prop where
  | receiver {i : Nat} {r : Text} (h : StandsAt l i r)
  | behindMarks {m r rest : Text} (hm : IsMarks m) (hr : r ∈ receivers) (h : l = m ++ (r ++ rest))
  | behindBlanks {m gap w rest : Text} (hm : IsMarks m) (hne : gap ≠ [])
      (hgap : ∀ c ∈ gap, isBlank c = true) (hw : w ∈ variableMarks) (h : l = m ++ (gap ++ (w ++ rest)))

/-! ## Marks -/

theorem dropMarks_append_mark {w : Text} (hw : w ∈ variableMarks) (t : Text) :
    dropMarks (w ++ t) = dropMarks t := by
  simp only [variableMarks, List.mem_cons, List.not_mem_nil, or_false] at hw
  rcases hw with rfl | rfl | rfl <;> rfl

theorem dropMarks_append {m : Text} (hm : IsMarks m) (t : Text) : dropMarks (m ++ t) = dropMarks t := by
  obtain ⟨ws, hws, rfl⟩ := hm
  induction ws with
  | nil => rfl
  | cons w ws ih =>
    rw [List.flatten_cons, List.append_assoc, dropMarks_append_mark (hws w (by simp)),
      ih fun x hx => hws x (by simp [hx])]

/-- A text is its marks and what is left without them, which begins with none. -/
theorem exists_marks (t : Text) : ∃ m, IsMarks m ∧ t = m ++ dropMarks t ∧
    ∀ w ∈ variableMarks, startsWith (dropMarks t) w = false := by
  have hadd {w m : Text} (hw : w ∈ variableMarks) : IsMarks m → IsMarks (w ++ m) := by
    rintro ⟨ws, hws, rfl⟩
    exact ⟨w :: ws, List.forall_mem_cons.2 ⟨hw, hws⟩, rfl⟩
  fun_induction dropMarks t with
  | case1 t ih =>
    obtain ⟨m, hm, heq, hnone⟩ := ih
    exact ⟨'@' :: m, hadd (w := ['@']) (by decide) hm, congrArg (['@'] ++ ·) heq, hnone⟩
  | case2 t ih =>
    obtain ⟨m, hm, heq, hnone⟩ := ih
    exact ⟨'v' :: '_' :: m, hadd (w := ['v', '_']) (by decide) hm, congrArg (['v', '_'] ++ ·) heq, hnone⟩
  | case3 t ih =>
    obtain ⟨m, hm, heq, hnone⟩ := ih
    exact ⟨'p' :: '_' :: m, hadd (w := ['p', '_']) (by decide) hm, congrArg (['p', '_'] ++ ·) heq, hnone⟩
  | case4 t hat hlocal hparameter =>
    refine ⟨[], ⟨[], by simp, rfl⟩, rfl, fun w hw => ?_⟩
    rw [← Bool.not_eq_true, startsWith_iff]
    rintro ⟨u, rfl⟩
    simp only [variableMarks, List.mem_cons, List.not_mem_nil, or_false] at hw
    rcases hw with rfl | rfl | rfl
    · exact hat u rfl
    · exact hlocal u rfl
    · exact hparameter u rfl

theorem length_dropMarks_le (t : Text) : (dropMarks t).length ≤ t.length := by
  obtain ⟨m, -, heq, -⟩ := exists_marks t
  have := congrArg List.length heq
  rw [List.length_append] at this
  omega

theorem dropMarks_eq_self_iff {t : Text} :
    dropMarks t = t ↔ ∀ w ∈ variableMarks, startsWith t w = false := by
  constructor
  · intro h
    obtain ⟨m, -, -, hnone⟩ := exists_marks t
    rwa [h] at hnone
  · intro h
    obtain ⟨m, ⟨ws, hws, rfl⟩, heq, -⟩ := exists_marks t
    cases ws with
    | nil => exact heq.symm
    | cons w ws =>
      have hw := hws w (by simp)
      rw [List.flatten_cons, List.append_assoc] at heq
      rw [heq] at h
      exact absurd (startsWith_append w _) (Bool.eq_false_iff.1 (h w hw))

/-- Marks begin with none of the letters that receivers begin with. -/
theorem not_begins_of_head {c : Char} (hc : ['s', 't', 'c'].contains c = false) (t : Text) :
    ¬ Begins (c :: t) := by
  rintro ⟨r, hr, hbegins⟩
  obtain ⟨u, hu⟩ := startsWith_iff.1 hbegins
  simp only [receivers, List.mem_cons, List.not_mem_nil, or_false] at hr
  rcases hr with rfl | rfl | rfl <;>
    (obtain ⟨rfl, -⟩ := List.cons.inj hu; exact Bool.false_ne_true hc.symm)

theorem not_begins_marks {m : Text} (hm : IsMarks m) (hne : m ≠ []) (t : Text) : ¬ Begins (m ++ t) := by
  obtain ⟨ws, hws, rfl⟩ := hm
  cases ws with
  | nil => exact absurd rfl hne
  | cons w ws =>
    have hw := hws w (by simp)
    simp only [variableMarks, List.mem_cons, List.not_mem_nil, or_false] at hw
    rcases hw with rfl | rfl | rfl <;> exact not_begins_of_head (by decide) _

/-! ## Receivers behind marks and blanks -/

theorem standsAfter_blank {c : Char} (hc : isBlank c = true) {t : Text} :
    StandsAfter none (c :: t) ↔ StandsAfter none t := by
  have hne {d : Char} (hd : isBlank d = false) : c ≠ d := by
    rintro rfl
    exact Bool.false_ne_true (hd.symm.trans hc)
  have hjoins : joins c = false := by
    have hletter : isAlphanumeric c = false := by
      rw [← Bool.not_eq_true]
      intro h
      exact Bool.false_ne_true ((isBlank_of_isAlphanumeric h).symm.trans hc)
    simp [joins, hletter, hne (d := '_') (by decide), hne (d := '.') (by decide)]
  refine standsAfter_cons_apart (isPlain_of_class (by decide) hc) ⟨?_, ?_⟩ hjoins (not_begins_of_head ?_ t)
  · simpa using hne (d := '&') (by decide)
  · simpa using hne (d := '<') (by decide)
  · simp [hne (d := 's') (by decide), hne (d := 't') (by decide), hne (d := 'c') (by decide)]

theorem standsAfter_append_blanks {gap : Text} (hgap : ∀ c ∈ gap, isBlank c = true) (t : Text) :
    StandsAfter none (gap ++ t) ↔ StandsAfter none t := by
  induction gap with
  | nil => rfl
  | cons c gap ih =>
    rw [List.cons_append, standsAfter_blank (hgap c (by simp)), ih fun d hd => hgap d (by simp [hd])]

/-- Blanks at the end are part of no receiver. -/
theorem standsAfter_blanks_end {gap : Text} (hgap : ∀ c ∈ gap, isBlank c = true) (t : Text) :
    StandsAfter none (t ++ gap) ↔ StandsAfter none t := by
  constructor
  · rintro ⟨x, r, y, heq, hr, hquote, hjoin⟩
    refine ⟨x, r, y.take (t.length - (x ++ r).length), ?_, hr, hquote, hjoin⟩
    -- the receiver ends in `t`, since its last character is not blank
    have hlast : ∀ c ∈ receivers.filterMap List.getLast?, isBlank c = false := by decide
    have hword : (x ++ r).length ≤ t.length := by
      rw [← Nat.not_lt]
      intro hlt
      obtain ⟨c, hc⟩ := Option.isSome_iff_exists.1
        (List.getLast?_isSome.2 (receivers_words r hr).1)
      have hblank := hlast c (List.mem_filterMap.2 ⟨r, hr, hc⟩)
      have hplace : (t ++ gap)[(x ++ r).length - 1]? = some c := by
        have hpos := List.length_pos_iff.2 (receivers_words r hr).1
        rw [heq, ← List.append_assoc, List.getElem?_append_left (by simp; omega), ← List.getLast?_eq_getElem?,
          List.getLast?_append, hc]
        rfl
      rw [List.getElem?_append_right (by omega)] at hplace
      exact Bool.false_ne_true (hblank.symm.trans (hgap c (List.mem_of_getElem? hplace)))
    have htake := congrArg (List.take t.length) heq
    rw [List.take_left, ← List.append_assoc, List.take_append, List.take_of_length_le hword,
      List.append_assoc] at htake
    exact htake
  · rintro ⟨x, r, y, rfl, hr, hquote, hjoin⟩
    exact ⟨x, r, y ++ gap, by simp, hr, hquote, hjoin⟩

theorem standsAfter_trim (t : Text) : StandsAfter none (trim t) ↔ StandsAfter none t := by
  obtain ⟨u, v, heq, hu, hv⟩ := exists_trim t
  have h := (standsAfter_append_blanks hu (trim t ++ v)).trans (standsAfter_blanks_end hv (trim t))
  rw [← heq] at h
  exact h.symm

/-- A mark hides a receiver only where it stands right behind it. -/
theorem standsAfter_mark {w : Text} (hw : w ∈ variableMarks) {t : Text} :
    (StandsAfter none (w ++ t) → StandsAfter none t) ∧
      (StandsAfter none t → StandsAfter none (w ++ t) ∨ Begins t) := by
  have hunder {c : Char} (hplain : isPlain c = true) (hhead : ['s', 't', 'c'].contains c = false) :
      StandsAfter none (c :: '_' :: t) ↔ StandsAfter (some '_') t := by
    rw [standsAfter_cons hplain, or_iff_right fun h => not_begins_of_head hhead _ h.2,
      standsAfter_cons (by decide), or_iff_right fun h => not_begins_of_head (by decide) _ h.2]
  have hfresh : Fresh (some '_') := by decide
  simp only [variableMarks, List.mem_cons, List.not_mem_nil, or_false] at hw
  rcases hw with rfl | rfl | rfl
  · have h := standsAfter_cons_apart (c := '@') (t := t) (by decide) (by decide) (by decide)
      (not_begins_of_head (by decide) t)
    exact ⟨h.1, fun ht => .inl (h.2 ht)⟩
  · have h := hunder (c := 'v') (by decide) (by decide)
    exact ⟨fun ht => (h.1 ht).alone hfresh, fun ht => (ht.after hfresh).imp_left h.2⟩
  · have h := hunder (c := 'p') (by decide) (by decide)
    exact ⟨fun ht => (h.1 ht).alone hfresh, fun ht => (ht.after hfresh).imp_left h.2⟩

theorem standsAfter_marks {m : Text} (hm : IsMarks m) {t : Text} :
    (StandsAfter none (m ++ t) → StandsAfter none t) ∧
      (StandsAfter none t → StandsAfter none (m ++ t) ∨ Begins t) := by
  obtain ⟨ws, hws, rfl⟩ := hm
  induction ws with
  | nil => exact ⟨id, .inl⟩
  | cons w ws ih =>
    obtain ⟨hback, hforth⟩ := ih fun x hx => hws x (by simp [hx])
    obtain ⟨hback', hforth'⟩ := standsAfter_mark (hws w (by simp)) (t := ws.flatten ++ t)
    rw [List.flatten_cons, List.append_assoc]
    refine ⟨fun h => hback (hback' h), fun h => ?_⟩
    rcases hforth h with h | h
    · rcases hforth' h with h | h
      · exact .inl h
      · -- only where no mark follows this one can the receiver stand behind it
        by_cases hnil : ws.flatten = []
        · rw [hnil, List.nil_append] at h
          exact .inr h
        · exact absurd h (not_begins_marks ⟨ws, fun x hx => hws x (by simp [hx]), rfl⟩ hnil t)
    · exact .inr h

/-! ## Normal forms -/

/-- A trimmed text in lower case is its own form exactly if no receiver stands in it and no mark
stands before it: all that normalising can do is to make it shorter. -/
theorem normalTarget_eq_self_iff {n : Text} (htrim : trim n = n) (hsmall : ∀ c ∈ n, isSmall c = true) :
    normalTarget n = n ↔ ¬ StandsAfter none n ∧ ∀ w ∈ variableMarks, startsWith n w = false := by
  have hlower {u : Text} (hu : u.Sublist n) : lower u = u := lower_of_small fun c hc => hsmall c (hu.subset hc)
  have hself : ¬ StandsAfter none n ↔ withoutReceivers n = n := by
    rw [← exists_standsAt_iff, withoutReceivers_eq_self_iff]
    simp only [not_exists]
  have hsub := withoutReceivers_sublist n
  rw [hself, normalTarget, htrim, hlower ((trim_sublist _).trans hsub)]
  constructor
  · intro h
    have hlength := congrArg List.length h
    have h₁ := length_trim_le (dropMarks (trim (withoutReceivers n)))
    have h₂ := length_dropMarks_le (trim (withoutReceivers n))
    have h₃ := length_trim_le (withoutReceivers n)
    have hwhole : withoutReceivers n = n := hsub.eq_of_length_le (by omega)
    rw [hwhole, htrim] at h h₁ h₂
    refine ⟨hwhole, dropMarks_eq_self_iff.1 ?_⟩
    obtain ⟨m, -, heq, -⟩ := exists_marks n
    have hlength' := congrArg List.length heq
    rw [List.length_append] at hlength'
    rw [h] at h₁
    have hm : m = [] := List.length_eq_zero_iff.1 (by omega)
    rw [hm] at heq
    exact heq.symm
  · rintro ⟨hwhole, hmarks⟩
    rw [hwhole, htrim, dropMarks_eq_self_iff.2 hmarks, htrim]

/-- What comes to light in the residue is what is left to take away from the form. -/
theorem resurfaces_iff {l : Text} : Resurfaces l ↔
    StandsAfter none (trim (dropMarks l)) ∨ ∃ w ∈ variableMarks, startsWith (trim (dropMarks l)) w = true := by
  obtain ⟨m, hm, heq, hnone⟩ := exists_marks l
  rw [standsAfter_trim]
  constructor
  · rintro (⟨h⟩ | ⟨hm', hr, rfl⟩ | @⟨m', gap, w, rest, hm', hne, hgap, hw, rfl⟩)
    · left
      have hl := exists_standsAt_iff.1 ⟨_, _, h⟩
      rw [heq] at hl
      exact (standsAfter_marks hm).1 hl
    · left
      rename_i r rest
      have hkeep : dropMarks (r ++ rest) = r ++ rest := by
        simp only [receivers, List.mem_cons, List.not_mem_nil, or_false] at hr
        rcases hr with rfl | rfl | rfl <;> rfl
      rw [dropMarks_append hm', hkeep]
      exact ⟨[], r, rest, rfl, hr, rfl, rfl⟩
    · right
      refine ⟨w, hw, ?_⟩
      have hwords : ∀ w ∈ variableMarks, w ≠ [] ∧ trim w = w ∧ ∀ c ∈ w, isBlank c = false := by decide
      have hkeep : dropMarks (gap ++ (w ++ rest)) = gap ++ (w ++ rest) := by
        obtain ⟨c, gap, rfl⟩ := List.exists_cons_of_ne_nil hne
        refine dropMarks_eq_self_iff.2 fun x hx => ?_
        obtain ⟨hxne, -, hblank⟩ := hwords x hx
        obtain ⟨d, x, rfl⟩ := List.exists_cons_of_ne_nil hxne
        have hdc : (d == c) = false := by
          rw [beq_eq_false_iff_ne]
          rintro rfl
          exact Bool.false_ne_true ((hblank d (by simp)).symm.trans (hgap d (by simp)))
        rw [List.cons_append, startsWith_cons, hdc, Bool.false_and]
      obtain ⟨hwne, hwtrim, -⟩ := hwords w hw
      have htrim : trim (gap ++ (w ++ rest)) = trim (w ++ rest) := by
        rw [trim, trimStart_append_blank hgap, trim]
      rw [dropMarks_append hm', hkeep, htrim, trim_append_of_trimmed hwne hwtrim]
      exact startsWith_append w _
  · rintro (h | ⟨w, hw, hbegins⟩)
    · rcases (standsAfter_marks hm).2 h with h | ⟨r, hr, hbegins⟩
      · rw [← heq] at h
        obtain ⟨i, r, hr⟩ := exists_standsAt_iff.2 h
        exact .receiver hr
      · obtain ⟨rest, hrest⟩ := startsWith_iff.1 hbegins
        exact .behindMarks hm hr (by rw [← hrest, ← heq])
    · obtain ⟨u, v, hsplit, hu, hv⟩ := exists_trim (dropMarks l)
      obtain ⟨rest, hrest⟩ := startsWith_iff.1 hbegins
      rw [hrest, List.append_assoc] at hsplit
      refine .behindBlanks hm ?_ hu hw (by rw [← hsplit, ← heq])
      rintro rfl
      rw [hsplit, List.nil_append] at hnone
      exact Bool.eq_false_iff.1 (hnone w hw) (startsWith_append w _)

theorem isSmall_of_mem_normalTarget {t : Text} {c : Char} (h : c ∈ normalTarget t) : isSmall c = true := by
  obtain ⟨m, -, heq, -⟩ := exists_marks (residue t)
  have hmem : c ∈ residue t := by
    rw [heq]
    exact List.mem_append_right m ((trim_sublist _).subset h)
  exact isSmall_of_mem_lower hmem

/-- **The form of a target is its own form exactly if nothing comes to light in what is left of the
target.** Letter case and blanks at the ends never come back. -/
theorem normalTarget_twice_iff (t : Text) :
    (normalTarget (normalTarget t) = normalTarget t ↔ ¬ Resurfaces (residue t)) ∧
      lower (normalTarget t) = normalTarget t ∧ trim (normalTarget t) = normalTarget t := by
  have hsmall : ∀ c ∈ normalTarget t, isSmall c = true := fun c hc => isSmall_of_mem_normalTarget hc
  have htrim : trim (normalTarget t) = normalTarget t := trim_trim _
  refine ⟨?_, lower_of_small hsmall, htrim⟩
  rw [normalTarget_eq_self_iff htrim hsmall, resurfaces_iff, not_or]
  refine and_congr_right fun _ => ?_
  simp only [not_exists, not_and, Bool.not_eq_true]
  rfl

/-- A receiver comes to light from under a mark, from under capitals and from under another receiver,
and a mark from under a mark with a blank behind it. -/
theorem normalTarget_unsettled :
    (normalTarget "v_self.status".toList = "self.status".toList ∧
      normalTarget "self.status".toList = "status".toList) ∧
    (normalTarget "SELF.status".toList = "self.status".toList) ∧
    (normalTarget "self.self.status".toList = "self.status".toList) ∧
    (normalTarget "v_ p_status".toList = "p_status".toList ∧
      normalTarget "p_status".toList = "status".toList) := by decide

end Concord.Equivalence
