/-
Operands: the parts that operators stand between. An operand is a closed text with
nothing at its top level but letters, digits, underscores, dots and brackets, so that a
blank after it ends it (`IsOperand.eq_of_word`).
-/
import Concord.Proofs.Code.Top

namespace Concord.Code

open Text

/-- A character that stands at the top level of an operand, brackets apart. -/
def isOperandChar (c : Char) : Bool := isAlphanumeric c || c == '_' || c == '.'

/-- A text that can stand on a side of an operator. -/
structure IsOperand (t : Text) : Prop where
  nonempty : t ≠ []
  closed : Closed t
  top : TopAll (fun c => isOperandChar c || isOpening c || isClosing c) t

instance (t : Text) : Decidable (IsOperand t) :=
  decidable_of_iff (t ≠ [] ∧ Closed t ∧ TopAll (fun c => isOperandChar c || isOpening c || isClosing c) t)
    ⟨fun ⟨h, hc, ht⟩ => ⟨h, hc, ht⟩, fun ⟨h, hc, ht⟩ => ⟨h, hc, ht⟩⟩

/-- The characters that an operand may begin or end with. -/
def isOperandEnd (c : Char) : Bool := isOperandChar c || isQuote c || isOpening c || isClosing c

theorem isBlank_of_isOperandEnd {c : Char} (h : isOperandEnd c = true) : isBlank c = false := by
  simp only [isOperandEnd, isOperandChar, isQuote, isOpening, isClosing, Bool.or_eq_true,
    beq_iff_eq] at h
  rcases h with (((((h | rfl) | rfl) | ((rfl | rfl) | rfl)) | ((rfl | rfl) | rfl)) | ((rfl | rfl) | rfl))
  · exact isBlank_of_isAlphanumeric h
  all_goals decide

namespace IsOperand

variable {t : Text}

theorem mem_top (h : IsOperand t) {c : Char} (hplain : isPlain c = true) (hc : ⟨c, some 0⟩ ∈ scan t) :
    isOperandChar c = true := by
  obtain ⟨-, ho, hl⟩ := isPlain_iff.1 hplain
  have := h.top _ hc rfl
  simpa [ho, hl] using this

/-- What stands in an operand after a closed part of it. -/
theorem isOperandChar_of_append {w v : Text} {c : Char} (h : IsOperand (w ++ c :: v)) (hw : Closed w)
    (hc : isPlain c = true) : isOperandChar c = true := by
  refine h.mem_top hc ?_
  rw [hw.scan_append, scanFrom_plain hc]
  simp

theorem head_end (h : IsOperand t) {c : Char} (hc : t.head? = some c) : isOperandEnd c = true := by
  obtain ⟨u, rfl⟩ := List.head?_eq_some_iff.1 hc
  rcases h.closed.head_cases with hq | ho | ⟨hplain, hmem⟩
  · simp [isOperandEnd, hq]
  · simp [isOperandEnd, ho]
  · simp [isOperandEnd, h.mem_top hplain hmem]

theorem last_end (h : IsOperand t) {c : Char} (hc : t.getLast? = some c) : isOperandEnd c = true := by
  obtain ⟨u, rfl⟩ := List.getLast?_eq_some_iff.1 hc
  rcases h.closed.last_cases with hq | hl | ⟨hplain, hmem⟩
  · simp [isOperandEnd, hq]
  · simp [isOperandEnd, hl]
  · simp [isOperandEnd, h.mem_top hplain hmem]

theorem trim_self (h : IsOperand t) : trim t = t :=
  trim_eq_self_iff.2 ⟨fun _ hc => isBlank_of_isOperandEnd (h.head_end hc),
    fun _ hc => isBlank_of_isOperandEnd (h.last_end hc)⟩

theorem append {a b : Text} (ha : IsOperand a) (hb : IsOperand b)
    (h : Fresh a.getLast? ∨ b.head? ≠ some '\'') : IsOperand (a ++ b) where
  nonempty := by simp [ha.nonempty]
  closed := ha.closed.append hb.closed h
  top := ha.top.append hb.top ha.closed h

theorem head_ne (h : IsOperand t) {c : Char} (hc : isOperandEnd c = false) : t.head? ≠ some c := by
  intro he
  rw [h.head_end he] at hc
  cases hc

end IsOperand

/-- What may follow a part of a condition: nothing or a blank. -/
def Follows (rest : Text) : Prop := rest = [] ∨ ∃ u, rest = ' ' :: u

/-- An operand that reads as a word and a blank is that word: the blank ends it. -/
theorem IsOperand.eq_of_word {b w rest : Text} (hb : IsOperand b) (hrest : Follows rest)
    (hw : ∀ c ∈ w, isPlain c = true ∧ c ≠ ' ') (h : startsWith (b ++ rest) (w ++ [' ']) = true) :
    b = w := by
  obtain ⟨u, hu⟩ := startsWith_iff.1 h
  rw [List.append_assoc, List.append_eq_append_iff] at hu
  rcases hu with ⟨v, rfl, hv⟩ | ⟨v, rfl, hv⟩
  · -- the operand ends inside the word
    rcases hrest with rfl | ⟨x, rfl⟩
    · cases v with
      | nil => simp
      | cons c v => simp at hv
    · cases v with
      | nil => simp
      | cons c v =>
        simp only [List.cons_append, List.cons.injEq] at hv
        exact absurd hv.1.symm (hw c (by simp)).2
  · -- the operand goes on after the word
    cases v with
    | nil => simp
    | cons c v =>
      simp only [List.cons_append, List.nil_append, List.cons.injEq] at hv
      obtain ⟨rfl, -⟩ := hv
      have hclosed : Closed w := closed_of_plain fun c hc => (hw c hc).1
      exact absurd (hb.isOperandChar_of_append hclosed (by decide)) (by decide)

/-! ## Spaced words -/

/-- `w` with one space on either side. -/
def spaced (w : Text) : Text := ' ' :: (w ++ [' '])

theorem closed_spaced {w : Text} (h : ∀ c ∈ w, isPlain c = true) : Closed (spaced w) := by
  refine closed_of_plain fun c hc => ?_
  simp only [spaced, List.mem_cons, List.mem_append, List.not_mem_nil, or_false] at hc
  rcases hc with rfl | hc | rfl
  · decide
  · exact h c hc
  · decide

theorem getLast?_spaced (w : Text) : (spaced w).getLast? = some ' ' := by
  rw [spaced, ← List.cons_append, List.getLast?_concat]

/-- Closed texts on both sides of a spaced operator make a closed text. -/
theorem closed_join {a b w : Text} (ha : Closed a) (hw : ∀ c ∈ w, isPlain c = true) (hb : Closed b) :
    Closed (a ++ (spaced w ++ b)) := by
  refine ha.append ((closed_spaced hw).append hb (.inl ?_)) (.inr ?_)
  · rw [getLast?_spaced]
    decide
  · simp [spaced]

theorem follows_spaced (w t : Text) : Follows (spaced w ++ t) := .inr ⟨_, rfl⟩

end Concord.Code
