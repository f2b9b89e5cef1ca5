/-
A type or no value, inside wrappers whose arguments stand in angle brackets. The scanner does not
know these, so that the bar parts the text of the outermost wrapper and neither part is a member for
no value. `peel_alternative_iff`: such a type is peeled to its meaning only without a wrapper around
it; inside one it keeps its whole text as its name, and is neither nullable nor a collection.
-/
import Concord.Proofs.Typing.Expression

namespace Concord.Typing

open Text Code

variable {f : Source.Format}

/-! ## What stands around a bar -/

/-- A character that neither parts a text nor is taken off its ends. -/
def isSolidChar (c : Char) : Bool := !isBlank c && isPlain c && c != '|'

/-- A text of such characters. -/
def Solid (t : Text) : Prop := ∀ c ∈ t, isSolidChar c = true

instance (t : Text) : Decidable (Solid t) := inferInstanceAs (Decidable (∀ c ∈ t, isSolidChar c = true))

namespace Solid

variable {t u : Text}

theorem append (ht : Solid t) (hu : Solid u) : Solid (t ++ u) :=
  fun c hc => (List.mem_append.1 hc).elim (ht c) (hu c)

theorem closed (h : Solid t) : Closed t := by
  refine closed_of_plain fun c hc => ?_
  have hsolid := h c hc
  simp only [isSolidChar, Bool.and_eq_true] at hsolid
  exact hsolid.1.2

theorem splitTop_self (h : Solid t) (hne : t ≠ []) : splitTop '|' t = [t] := by
  have hblank : ∀ c ∈ t, isBlank c = false := by
    intro c hc
    have hsolid := h c hc
    simp only [isSolidChar, Bool.and_eq_true, Bool.not_eq_true'] at hsolid
    exact hsolid.1.1
  have hbar : '|' ∉ t := fun hmem => by simpa [isSolidChar] using h _ hmem
  exact splitTop_single (topAll_of_not_mem hbar)
    (trim_eq_self_iff.2 ⟨fun c hc => hblank c (List.mem_of_head? hc),
      fun c hc => hblank c (List.mem_of_getLast? hc)⟩) hne

end Solid

theorem IsBare.solid {t : Text} (h : IsBare t) : Solid t := by
  intro c hc
  have hbar : c ≠ '|' := by
    rintro rfl
    exact h.not_mem (by decide) hc
  simp [isSolidChar, not_isBlank_of_isBareChar (h.chars c hc), h.plain c hc, hbar]

/-- Wrappers in angle brackets around a text. -/
theorem exists_frame (hangle : Brackets.ofFormat f = .angle) (base : Path) {wraps : List (Layer f)}
    (hwraps : ∀ l ∈ wraps, l.isUnion = false) :
    ∃ before after, (∀ ls, written base (wraps ++ ls) = before ++ (written base ls ++ after)) ∧
      Solid before ∧ Solid after ∧ (wraps ≠ [] → '<' ∈ before ∧ '>' ∈ after) := by
  induction wraps with
  | nil => exact ⟨[], [], fun ls => by simp, by simp [Solid], by simp [Solid], by simp⟩
  | cons l wraps ih =>
    obtain ⟨before, after, htext, hbefore, hafter, -⟩ := ih fun l hl => hwraps l (.tail _ hl)
    cases l with
    | wrap path known =>
      refine ⟨path.text ++ ['<'] ++ before, after ++ ['>'], fun ls => ?_, ?_, ?_, by simp⟩
      · rw [List.cons_append, written_cons, Layer.around, htext, hangle]
        simp [wrapped, Brackets.opening, Brackets.closing]
      · exact (path.bare.solid.append (by decide)).append hbefore
      · exact hafter.append (by decide)
    | orAbsent a => cases hwraps _ List.mem_cons_self
    | absentOr a => cases hwraps _ List.mem_cons_self

/-- A union is a bare text on each side of a bar. -/
theorem exists_sides (base : Path) {l : Layer f} (hl : l.isUnion = true) :
    ∃ (a : Absence f) (left right : Text), IsBare left ∧ IsBare right ∧
      written base [l] = left ++ (a.bar ++ right) := by
  cases l with
  | wrap path known => cases hl
  | orAbsent a => exact ⟨a, base.text, a.marker, base.bare, a.segment.bare, rfl⟩
  | absentOr a => exact ⟨a, a.marker, base.text, a.segment.bare, base.bare, rfl⟩

/-- Brackets stand in no member for no value. -/
theorem not_absent_of_mem {c : Char} (hc : isSegmentChar c = false) {t : Text} (h : c ∈ t) :
    t ∉ (Wrappers.ofFormat f).absent :=
  fun habsent => (segment_of_absent f t habsent).1.not_mem hc h

/-! ## Peeling -/

/-- A type or no value, in wrappers. -/
structure Alternative (f : Source.Format) where
  wraps : List (Layer f)
  wrapping : ∀ l ∈ wraps, l.isUnion = false
  union : Layer f
  joining : union.isUnion = true
  base : Path
  present : base.text ∉ (Wrappers.ofFormat f).absent

namespace Alternative

variable (a : Alternative f)

def expression : Expression f := ⟨a.wraps ++ [a.union], a.base, a.present⟩

/-- Inside a wrapper the bar parts it from its end. -/
theorem splitTop_wraps (hangle : Brackets.ofFormat f = .angle) (hne : a.wraps ≠ []) :
    ∃ m n, splitTop '|' a.expression.text = [m, n] ∧ '<' ∈ m ∧ '>' ∈ n := by
  obtain ⟨before, after, htext, hbefore, hafter, hbrackets⟩ := exists_frame hangle a.base a.wrapping
  obtain ⟨b, left, right, hleft, hright, hsides⟩ := exists_sides a.base a.joining
  have hparts : a.expression.text = (before ++ left) ++ (b.bar ++ (right ++ after)) := by
    rw [Expression.text, expression, htext, hsides]
    simp
  have hsolid : Solid (before ++ left) := hbefore.append hleft.solid
  refine ⟨before ++ left, right ++ after, ?_, List.mem_append_left _ (hbrackets hne).1,
    List.mem_append_right _ (hbrackets hne).2⟩
  rw [hparts, b.splitTop_bar hsolid.closed, hsolid.splitTop_self (by simp [hleft.ne_nil]),
    (hright.solid.append hafter).splitTop_self (by simp [hright.ne_nil])]
  rfl

theorem startsWith_wraps (hne : a.wraps ≠ []) :
    startsWith a.expression.text "mut ".toList = false := by
  obtain ⟨l, wraps, hwraps⟩ := List.exists_cons_of_ne_nil hne
  have hl := a.wrapping l (by simp [hwraps])
  cases l with
  | wrap path known =>
    rw [Expression.text, expression, hwraps]
    exact startsWith_wrap a.base (wraps ++ [a.union]) path known
  | orAbsent b => cases hl
  | absentOr b => cases hl

theorem peel_wraps (hangle : Brackets.ofFormat f = .angle) (hne : a.wraps ≠ []) :
    (Wrappers.ofFormat f).peel a.expression.text = ⟨a.expression.text, false, false⟩ := by
  obtain ⟨m, n, hsplit, hm, hn⟩ := a.splitTop_wraps hangle hne
  have hlegible : Legible a.expression.text := legible_written a.base (a.wraps ++ [a.union])
  refine peel_of_done hlegible.trimmed
    (step_present (hlegible.unmarked (a.startsWith_wraps hne)) (by simp [hsplit]) ?_)
  rw [hsplit]
  intro part hpart
  simp only [List.mem_cons, List.not_mem_nil, or_false] at hpart
  rcases hpart with rfl | rfl
  · exact not_absent_of_mem (by decide) hm
  · exact not_absent_of_mem (by decide) hn

/-- The union counts, or a collection around it. -/
theorem meaning_marked :
    a.expression.meaning.nullable = true ∨ a.expression.meaning.collection = true := by
  rw [Expression.meaning, expression]
  dsimp only
  generalize a.wraps = wraps
  induction wraps with
  | nil =>
    rw [List.nil_append, meaning_union a.base a.joining]
    exact .inl rfl
  | cons l wraps ih =>
    rw [List.cons_append]
    cases hcollection : l.isCollection with
    | true =>
      rw [meaning_collection a.base hcollection]
      exact .inr rfl
    | false =>
      rw [meaning_cons a.base hcollection]
      rcases ih with hnullable | hinner
      · exact .inl (by rw [Peeled.within, hnullable, Bool.or_true])
      · exact .inr hinner

/-- Without a wrapper around it, it is a union at the top level. -/
theorem reads_union_alone (hne : a.wraps = []) : Reads a.expression.base a.expression.layers := by
  have hcore : core [a.union] = [] := List.dropWhile_cons_of_pos a.joining
  rw [expression, hne]
  refine reads_union a.present a.joining ?_ ?_ <;> rw [hcore]
  · exact a.base.bare.topAll_bar
  · exact reads_nil a.base

end Alternative

/-- A type or no value is peeled to its meaning where no wrapper stands around it, unless it is
misread. In a wrapper it is left as it is. -/
theorem peel_alternative_iff (a : Alternative .typescript) :
    (Wrappers.typescript.peel a.expression.text = a.expression.meaning ↔
      a.wraps = [] ∧ a.expression.misread = false) ∧
    (a.wraps ≠ [] → Wrappers.typescript.peel a.expression.text = ⟨a.expression.text, false, false⟩) := by
  have hpeel : a.wraps ≠ [] →
      Wrappers.typescript.peel a.expression.text = ⟨a.expression.text, false, false⟩ := a.peel_wraps rfl
  refine ⟨?_, hpeel⟩
  by_cases hwraps : a.wraps = []
  · rw [and_iff_right hwraps]
    exact (a.reads_union_alone hwraps).peel_eq_iff
  · refine ⟨fun h => ?_, fun h => absurd h.1 hwraps⟩
    have hmarked := a.meaning_marked
    rw [← h, hpeel hwraps] at hmarked
    simp at hmarked

/-- The type `undefined | Company`. -/
def absentOrCompany : Alternative .typescript where
  wraps := []
  wrapping := List.forall_mem_nil _
  union := .absentOr (.spaced "undefined".toList (by decide))
  joining := rfl
  base := .single "Company".toList (by decide)
  present := by decide

/-- The type `Promise<Company | null>`. -/
def promisedCompany : Alternative .typescript where
  wraps := [.wrap (.single "Promise".toList (by decide)) (by decide)]
  wrapping := List.forall_mem_singleton.2 rfl
  union := .orAbsent (.spaced "null".toList (by decide))
  joining := rfl
  base := .single "Company".toList (by decide)
  present := by decide

theorem peel_companies :
    Wrappers.typescript.peel "undefined | Company".toList = ⟨"Company".toList, true, false⟩ ∧
      Wrappers.typescript.peel "Promise<Company | null>".toList =
        ⟨"Promise<Company | null>".toList, false, false⟩ := by
  have htext : absentOrCompany.expression.text = "undefined | Company".toList := by decide
  have hmeaning : absentOrCompany.expression.meaning = ⟨"Company".toList, true, false⟩ := by decide
  have hpromised : promisedCompany.expression.text = "Promise<Company | null>".toList := by decide
  rw [← htext, ← hmeaning, ← hpromised]
  exact ⟨(peel_alternative_iff absentOrCompany).1.2 ⟨rfl, by decide⟩,
    (peel_alternative_iff promisedCompany).2 (List.cons_ne_nil _ _)⟩

theorem peel_promisedCompany :
    promisedCompany.expression.text = "Promise<Company | null>".toList ∧
      promisedCompany.expression.meaning = ⟨"Company".toList, true, false⟩ ∧
      Wrappers.typescript.peel promisedCompany.expression.text =
        ⟨"Promise<Company | null>".toList, false, false⟩ := by
  decide

end Concord.Typing
