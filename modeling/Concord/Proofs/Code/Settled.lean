/-
Settled texts: reading one ends outside literals and outside brackets. A closing
bracket without a partner does not keep a text from being settled, since depths stop
at 0. What follows a settled text is read as on its own (`Settled.scan_append_of`), and
closed texts are the settled ones in which at no place more brackets have closed than
opened (`closed_iff`).
-/
import Concord.Proofs.Code.Closed

namespace Concord.Code

open Text

/-- Reading the text ends outside every literal and outside all brackets. -/
def Settled (t : Text) : Prop :=
  (Cursor.start.after t).quote = none ∧ (Cursor.start.after t).depth = 0

instance (t : Text) : Decidable (Settled t) :=
  inferInstanceAs (Decidable ((Cursor.start.after t).quote = none ∧ (Cursor.start.after t).depth = 0))

/-! ## The place after a settled text -/

theorem Cursor.prev_next (k : Cursor) (c : Char) : (k.next c).prev = some c := by
  unfold next
  repeat' split
  all_goals rfl

theorem Cursor.prev_after (k : Cursor) (t : Text) : (k.after t).prev = t.getLast?.or k.prev := by
  induction t generalizing k with
  | nil => rfl
  | cons c t ih =>
    have hstep : k.after (c :: t) = (k.next c).after t := rfl
    rw [hstep, ih, prev_next]
    simp [List.getLast?_cons]

/-- A backslash counts inside literals only. -/
theorem Cursor.escaped_next {k : Cursor} (h : k.quote = none → k.escaped = false) (c : Char) :
    (k.next c).quote = none → (k.next c).escaped = false := by
  obtain ⟨n, _ | q, e, p⟩ := k
  · have he : e = false := h rfl
    simp only [next]
    grind
  · simp only [next]
    grind

theorem Cursor.escaped_after {k : Cursor} (h : k.quote = none → k.escaped = false) (t : Text) :
    (k.after t).quote = none → (k.after t).escaped = false := by
  induction t generalizing k with
  | nil => exact h
  | cons c t ih => exact ih (escaped_next h c)

/-- All that is left of a settled text is its last character. -/
theorem Settled.after_eq {t : Text} (h : Settled t) : Cursor.start.after t = .code 0 t.getLast? := by
  have hprev := Cursor.prev_after .start t
  have hescaped := Cursor.escaped_after (k := .start) (fun _ => rfl) t h.1
  rw [Cursor.start, Option.or_none] at hprev
  exact (Cursor.mk.injEq ..).mpr ⟨h.2, h.1, hescaped, hprev⟩

/-- Before code, only the mark of a lifetime can tell the middle of a text from its beginning. -/
theorem scanFrom_restart {p : Option Char} {t : Text} (h : Fresh p ∨ t.head? ≠ some '\'') :
    scanFrom (.code 0 p) t = scan t := by
  rcases h with h | h
  · exact scanFrom_fresh h t
  · cases t with
    | nil => rfl
    | cons c t => exact (Cursor.run?_unquoted (by simpa using h) t).2

section Append

variable {a : Text} (ha : Settled a)

include ha

theorem Settled.scan_append (b : Text) : scan (a ++ b) = scan a ++ scanFrom (.code 0 a.getLast?) b := by
  rw [scan, scanFrom_append, ha.after_eq]
  rfl

/-- A text after a settled one is read as on its own, unless the first hides a quote that it begins with. -/
theorem Settled.scan_append_of {b : Text} (h : Fresh a.getLast? ∨ b.head? ≠ some '\'') :
    scan (a ++ b) = scan a ++ scan b := by
  rw [ha.scan_append, scanFrom_restart h]

/-- A plain character after a settled text stands at the top level, and parts it from what follows. -/
theorem Settled.scan_parted {c : Char} (hc : isPlain c = true) (hfresh : Fresh (some c)) (b : Text) :
    scan (a ++ c :: b) = scan a ++ ⟨c, some 0⟩ :: scan b := by
  rw [ha.scan_append, scanFrom_plain hc, scanFrom_fresh hfresh]

end Append

/-! ## Counting brackets -/

/-- How many brackets open in the code of these cells. -/
def openings (cells : List Cell) : Nat := cells.countP fun c => c.depth.isSome && isOpening c.char

/-- How many brackets close in the code of these cells. -/
def closings (cells : List Cell) : Nat := cells.countP fun c => c.depth.isSome && isClosing c.char

/-- Up to no place of the text have more brackets closed than opened. -/
def NeverSinks (t : Text) : Prop := ∀ cells, cells <+: scan t → closings cells ≤ openings cells

theorem openings_cons (c : Cell) (cells : List Cell) :
    openings (c :: cells) = openings [c] + openings cells := by
  rw [← List.singleton_append, openings, List.countP_append, openings, openings]

theorem closings_cons (c : Cell) (cells : List Cell) :
    closings (c :: cells) = closings [c] + closings cells := by
  rw [← List.singleton_append, closings, List.countP_append, closings, closings]

/-- What reading one character can do: it may belong to a literal, open a bracket, close one or be other code. -/
theorem Cursor.read_cases (k : Cursor) (c : Char) :
    (k.cell c = ⟨c, none⟩ ∧ (k.next c).depth = k.depth ∧ k.sinks c = false) ∨
    (isOpening c = true ∧ isClosing c = false ∧ k.cell c = ⟨c, some k.depth⟩ ∧
      (k.next c).depth = k.depth + 1 ∧ k.sinks c = false) ∨
    (isOpening c = false ∧ isClosing c = true ∧ k.cell c = ⟨c, some (k.depth - 1)⟩ ∧
      (k.next c).depth = k.depth - 1 ∧ k.sinks c = (k.depth == 0)) ∨
    (isOpening c = false ∧ isClosing c = false ∧ k.cell c = ⟨c, some k.depth⟩ ∧
      (k.next c).depth = k.depth ∧ k.sinks c = false) := by
  obtain ⟨n, _ | q, e, p⟩ := k
  · cases hopens : (Cursor.mk n none e p).opens c with
    | true => exact .inl (by simp [cell, next, sinks, hopens])
    | false =>
      cases ho : isOpening c with
      | true =>
        have hl := (not_opens_of_isOpening ho .start).2
        exact .inr (.inl (by simp [cell, next, sinks, hopens, ho, hl]))
      | false =>
        cases hl : isClosing c with
        | true => exact .inr (.inr (.inl (by simp [cell, next, sinks, hopens, ho, hl])))
        | false => exact .inr (.inr (.inr (by simp [cell, next, sinks, hopens, ho, hl])))
  · refine .inl ⟨rfl, ?_, rfl⟩
    simp only [next]
    repeat' split
    all_goals rfl

/-- The depth goes up and down with the brackets, unless one closes that was not opened. -/
theorem Cursor.depth_next (k : Cursor) (c : Char) :
    if k.sinks c then k.depth + openings [k.cell c] < closings [k.cell c]
    else (k.next c).depth + closings [k.cell c] = k.depth + openings [k.cell c] := by
  rcases k.read_cases c with ⟨hcell, hdepth, hsinks⟩ | ⟨ho, hl, hcell, hdepth, hsinks⟩ |
    ⟨ho, hl, hcell, hdepth, hsinks⟩ | ⟨ho, hl, hcell, hdepth, hsinks⟩
  · simp [openings, closings, hcell, hdepth, hsinks]
  · simp [openings, closings, hcell, hdepth, hsinks, ho, hl]
  · by_cases hzero : k.depth = 0
    · simp [openings, closings, hcell, hsinks, ho, hl, hzero]
    · simp [openings, closings, hcell, hdepth, hsinks, ho, hl, hzero]
      omega
  · simp [openings, closings, hcell, hdepth, hsinks, ho, hl]

/-- Reading meets no bracket that was not opened if and only if the count of brackets never falls below
what was open before. -/
theorem Cursor.run?_eq_after_iff (k : Cursor) (t : Text) : k.run? t = some (k.after t) ↔
    ∀ cells, cells <+: scanFrom k t → closings cells ≤ k.depth + openings cells := by
  induction t generalizing k with
  | nil =>
    refine iff_of_true rfl fun cells hcells => ?_
    rw [List.prefix_nil.1 hcells]
    exact Nat.zero_le _
  | cons c t ih =>
    have hstep := k.depth_next c
    rw [run?, scanFrom]
    cases hsinks : k.sinks c with
    | true =>
      rw [hsinks, if_pos rfl] at hstep
      refine iff_of_false (by simp) fun h => ?_
      have hfirst := h [k.cell c] (List.cons_prefix_cons.2 ⟨rfl, List.nil_prefix⟩)
      omega
    | false =>
      rw [hsinks, if_neg (by simp)] at hstep
      have hafter : k.after (c :: t) = (k.next c).after t := rfl
      rw [if_neg (by simp), hafter, ih]
      constructor
      · intro h cells hcells
        cases cells with
        | nil => exact Nat.zero_le _
        | cons cell cells =>
          obtain ⟨rfl, htail⟩ := List.cons_prefix_cons.1 hcells
          have hrest := h cells htail
          rw [openings_cons, closings_cons]
          omega
      · intro h cells hcells
        have hall := h (k.cell c :: cells) (List.cons_prefix_cons.2 ⟨rfl, hcells⟩)
        rw [openings_cons, closings_cons] at hall
        omega

/-- **Closed texts** are the settled ones in which no bracket closes that was not opened. -/
theorem closed_iff {t : Text} : Closed t ↔ Settled t ∧ NeverSinks t := by
  have hcount := Cursor.run?_eq_after_iff .start t
  simp only [Cursor.start, Nat.zero_add] at hcount
  constructor
  · intro h
    have hafter : Cursor.start.after t = .code 0 t.getLast? := Cursor.after_of_run? h
    refine ⟨by simp [Settled, hafter], hcount.1 ?_⟩
    exact hafter.symm ▸ h
  · rintro ⟨hsettled, hsinks⟩
    rw [Closed, ← hsettled.after_eq]
    exact hcount.2 hsinks

theorem Closed.settled {t : Text} (h : Closed t) : Settled t := (closed_iff.1 h).1

end Concord.Code
