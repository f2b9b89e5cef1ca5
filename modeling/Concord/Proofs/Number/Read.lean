/-
The characters of numbers: digits, signs, a point and the mark of an exponent. No text with another
character is read as a number (`isNumberChar_of_int64?`, `isNumberChar_of_finiteFloat?`).
-/
import Concord.Number.Read

namespace Concord.Number

open Text

/-- A character that may stand in a number. -/
def isNumberChar (c : Char) : Bool := isAsciiDigit c || ['+', '-', '.', 'e', 'E'].contains c

theorem isNumberChar_of_digit {c : Char} (h : isAsciiDigit c = true) : isNumberChar c = true := by
  simp [isNumberChar, h]

theorem isNumberChar_of_digits {ds : Text} (h : ds.all isAsciiDigit = true) :
    ∀ c ∈ ds, isNumberChar c = true :=
  fun c hc => isNumberChar_of_digit (List.all_eq_true.1 h c hc)

/-- A sign is a character of a number. -/
theorem isNumberChar_of_signOf {t : Text} (h : ∀ c ∈ (signOf t).2, isNumberChar c = true) :
    ∀ c ∈ t, isNumberChar c = true := by
  unfold signOf at h
  split at h
  · exact List.forall_mem_cons.2 ⟨by decide, h⟩
  · exact List.forall_mem_cons.2 ⟨by decide, h⟩
  · exact h

theorem isNumberChar_of_int64? {t : Text} {n : Int} (h : int64? t = some n) :
    ∀ c ∈ t, isNumberChar c = true := by
  refine isNumberChar_of_signOf (isNumberChar_of_digits ?_)
  unfold int64? at h
  dsimp only at h
  split at h
  · cases h
  · rename_i hdigits
    simp only [Bool.or_eq_true, Bool.not_eq_true', not_or, Bool.not_eq_false] at hdigits
    exact hdigits.2

/-- Digits at the beginning, and the rest. -/
theorem isNumberChar_of_takeWhile {t : Text}
    (h : ∀ c ∈ t.dropWhile isAsciiDigit, isNumberChar c = true) : ∀ c ∈ t, isNumberChar c = true := by
  intro c hc
  rw [← List.takeWhile_append_dropWhile (p := isAsciiDigit) (l := t)] at hc
  rcases List.mem_append.1 hc with hc | hc
  · exact isNumberChar_of_digits List.all_takeWhile c hc
  · exact h c hc

/-- The mark of an exponent, a sign and digits. -/
theorem isNumberChar_of_exponent {c : Char} {u : Text}
    (h : ((c == 'e' || c == 'E') && !(signOf u).2.isEmpty && (signOf u).2.all isAsciiDigit) = true) :
    ∀ d ∈ c :: u, isNumberChar d = true := by
  simp only [Bool.and_eq_true, Bool.or_eq_true, beq_iff_eq] at h
  refine List.forall_mem_cons.2 ⟨?_, isNumberChar_of_signOf (isNumberChar_of_digits h.2)⟩
  rcases h.1.1 with rfl | rfl <;> decide

theorem isNumberChar_of_decimal? {t : Text} {r : Nat × Int} (h : decimal? t = some r) :
    ∀ c ∈ t, isNumberChar c = true := by
  have hrest : t.drop (t.takeWhile isAsciiDigit).length = t.dropWhile isAsciiDigit := by
    have hwhole : t.takeWhile isAsciiDigit ++ t.dropWhile isAsciiDigit = t :=
      List.takeWhile_append_dropWhile
    exact (congrArg (List.drop _) hwhole.symm).trans List.drop_left
  simp only [decimal?, hrest, Option.bind_eq_bind, Option.bind_none, Option.bind_some] at h
  refine isNumberChar_of_takeWhile ?_
  generalize t.dropWhile isAsciiDigit = tail at h ⊢
  split at h <;> dsimp only at h
  -- where a point follows, the digits after it go first
  rename_i u
  refine List.forall_mem_cons.2 ⟨by decide, isNumberChar_of_takeWhile ?_⟩
  generalize u.dropWhile isAsciiDigit = tail at h ⊢
  all_goals
    split at h
    · cases h
    split at h
    · simp
    split at h
    · exact isNumberChar_of_exponent ‹_›
    · cases h

theorem isNumberChar_of_finiteFloat? {t : Text} {x : Float} (h : finiteFloat? t = some x) :
    ∀ c ∈ t, isNumberChar c = true := by
  unfold finiteFloat? at h
  simp only [Option.bind_eq_bind, Option.bind_eq_some_iff] at h
  obtain ⟨r, hr, -⟩ := h
  exact isNumberChar_of_signOf (isNumberChar_of_decimal? hr)

end Concord.Number
