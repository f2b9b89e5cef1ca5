/-
Splitting at the top level loses nothing but separators and blanks, and gives parts
that cannot be split again. The second is a matter of where reading begins: a part
is read on its own as it is read where it stands, since at a separator reading is
outside literals and brackets and no lifetime's mark goes before the part.
-/
import Concord.Proofs.Code.Split

namespace Concord.Code

open Text

/-- The text without its blanks. -/
def ink (t : Text) : Text := t.filter fun c => !isBlank c

/-- The text without its top-level separators. -/
def withoutTop (sep : Char) (t : Text) : Text :=
  ((scan t).filter fun c => !(c.isTop && c.char == sep)).map Cell.char

/-! ## Nothing is lost -/

theorem ink_append (a b : Text) : ink (a ++ b) = ink a ++ ink b := List.filter_append ..

theorem ink_blank {gap : Text} (hgap : ∀ c ∈ gap, isBlank c = true) : ink gap = [] := by
  rw [ink, List.filter_eq_nil_iff]
  intro c hc
  simp [hgap c hc]

theorem ink_trim (t : Text) : ink (trim t) = ink t := by
  obtain ⟨u, v, heq, hu, hv⟩ := exists_trim t
  have h := congrArg ink heq
  rw [ink_append, ink_append, ink_blank hu, ink_blank hv, List.nil_append, List.append_nil] at h
  exact h.symm

theorem ink_flatten_trim (ts : List Text) : ink (ts.map trim).flatten = ink ts.flatten := by
  induction ts with
  | nil => rfl
  | cons t ts ih => rw [List.map_cons, List.flatten_cons, List.flatten_cons, ink_append, ink_append, ink_trim, ih]

theorem flatten_piecesAt (sep : Char) (cells : List Cell) : (piecesAt sep cells).flatten =
    (cells.filter fun c => !(c.isTop && c.char == sep)).map Cell.char := by
  induction cells with
  | nil => rfl
  | cons cell cells ih =>
    obtain ⟨piece, pieces, hpieces⟩ := exists_piecesAt sep cells
    rw [hpieces, List.flatten_cons] at ih
    rw [piecesAt, hpieces, List.filter_cons]
    cases cell.isTop && cell.char == sep with
    | true => exact ih
    | false => exact congrArg (cell.char :: ·) ih

theorem ink_flatten_splitTop (sep : Char) (t : Text) :
    ink (splitTop sep t).flatten = ink (withoutTop sep t) := by
  rw [splitTop, List.flatten_filter_not_isEmpty, ink_flatten_trim, flatten_piecesAt, withoutTop]

/-! ## No part has a separator left -/

/-- A plain character of the top level stands outside literals and brackets. -/
theorem Cursor.settled_of_isTop {k : Cursor} {c : Char} (hc : isPlain c = true)
    (h : (k.cell c).isTop = true) : k.quote = none ∧ k.depth = 0 := by
  obtain ⟨-, -, hclosing⟩ := isPlain_iff.1 hc
  obtain ⟨n, _ | q, e, p⟩ := k
  · refine ⟨rfl, ?_⟩
    simp only [cell, hclosing] at h
    split at h
    · simp [Cell.isTop] at h
    · simpa [Cell.isTop] using h
  · simp [cell, Cell.isTop] at h

section Separator

variable {sep : Char} (hsep : isPlain sep = true)

include hsep

theorem exists_separator_from (k : Cursor) (t : Text) :
    (∀ cell ∈ scanFrom k t, cell.isTop = true → (cell.char != sep) = true) ∨
    ∃ a b, t = a ++ sep :: b ∧ (k.after a).quote = none ∧ (k.after a).depth = 0 := by
  induction t generalizing k with
  | nil => exact .inl fun cell hcell => by cases hcell
  | cons c t ih =>
    by_cases hhere : c = sep ∧ (k.cell c).isTop = true
    · obtain ⟨rfl, htop⟩ := hhere
      exact .inr ⟨[], t, rfl, Cursor.settled_of_isTop hsep htop⟩
    rcases ih (k.next c) with hnone | ⟨a, b, rfl, hafter⟩
    · refine .inl fun cell hcell htop => ?_
      rcases List.mem_cons.1 hcell with rfl | hcell
      · rw [Cursor.char_cell]
        exact bne_iff_ne.2 fun hc => hhere ⟨hc, htop⟩
      · exact hnone cell hcell htop
    · exact .inr ⟨c :: a, b, rfl, hafter⟩

/-- What stands before a separator is settled. -/
theorem exists_separator (t : Text) :
    TopAll (· != sep) t ∨ ∃ a b, t = a ++ sep :: b ∧ Settled a := exists_separator_from hsep .start t

theorem topAll_of_mem_piecesAt (hfresh : Fresh (some sep)) {t piece : Text}
    (h : piece ∈ piecesAt sep (scan t)) : TopAll (· != sep) piece := by
  -- a separator parts a text into two shorter ones, each of which is read from its own beginning
  induction hn : t.length using Nat.strongRecOn generalizing t with
  | ind n ih =>
    rcases exists_separator hsep t with htop | ⟨a, b, rfl, ha⟩
    · rw [piecesAt_scan htop, List.mem_singleton] at h
      exact h ▸ htop
    · rw [ha.scan_parted hsep hfresh, piecesAt_append, List.mem_append] at h
      simp only [List.length_append, List.length_cons] at hn
      rcases h with h | h
      · exact ih a.length (by omega) h rfl
      · exact ih b.length (by omega) h rfl

end Separator

/-- Blanks at the ends have no part in how the rest is read. -/
theorem TopAll.trim {ok : Char → Bool} {t : Text} (h : TopAll ok t) : TopAll ok (trim t) := by
  obtain ⟨u, v, heq, hu, -⟩ := exists_trim t
  have hrest : scan (Text.trim t ++ v) = scan (Text.trim t) ++ scanFrom (Cursor.start.after (Text.trim t)) v :=
    scanFrom_append ..
  intro cell hcell
  refine h cell ?_
  rw [heq, (closed_of_blank hu).scan_append_of (.inl (fresh_of_blank hu)), hrest]
  simp [hcell]

/-- **Splitting is lossless and atomic.** Together the parts are the text without its top-level separators,
up to blanks; each part is trimmed, is not empty, and is its own only part. -/
theorem splitTop_lossless_atomic {sep : Char} (hsep : sep ∈ [',', ';', '|']) (t : Text) :
    ink (splitTop sep t).flatten = ink (withoutTop sep t) ∧
    ∀ part ∈ splitTop sep t, trim part = part ∧ part ≠ [] ∧ splitTop sep part = [part] := by
  obtain ⟨hplain, hfresh⟩ : isPlain sep = true ∧ Fresh (some sep) := by
    simp only [List.mem_cons, List.not_mem_nil, or_false] at hsep
    rcases hsep with rfl | rfl | rfl <;> decide
  refine ⟨ink_flatten_splitTop sep t, fun part hpart => ?_⟩
  obtain ⟨hmem, hkept⟩ := List.mem_filter.1 hpart
  obtain ⟨piece, hpiece, rfl⟩ := List.mem_map.1 hmem
  have hne : trim piece ≠ [] := by simpa using hkept
  have htop := (topAll_of_mem_piecesAt hplain hfresh hpiece).trim
  exact ⟨trim_trim piece, hne, splitTop_single htop (trim_trim piece) hne⟩

/-- Surplus brackets, separators in literals and brackets, and the mark of a lifetime. -/
theorem splitTop_lossless_atomic_mixed : ';' ∈ [',', ';', '|'] ∧
    splitTop ';' "a]; f(1; 2) ;; &'b; ';' c".toList =
      ["a]".toList, "f(1; 2)".toList, "&'b".toList, "';' c".toList] ∧
    splitTop ';' "&'b".toList = ["&'b".toList] := by
  have hparts : splitTop ';' "a]; f(1; 2) ;; &'b; ';' c".toList =
      ["a]".toList, "f(1; 2)".toList, "&'b".toList, "';' c".toList] := by decide
  have hsep : ';' ∈ [',', ';', '|'] := by decide
  obtain ⟨-, -, hatomic⟩ := (splitTop_lossless_atomic hsep "a]; f(1; 2) ;; &'b; ';' c".toList).2 "&'b".toList
    (by rw [hparts]; decide)
  exact ⟨hsep, hparts, hatomic⟩

end Concord.Code
