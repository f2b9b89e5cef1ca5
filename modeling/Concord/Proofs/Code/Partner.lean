/-
The partner of a bracket. Depths are counted from the beginning of a text and stop at 0,
so where brackets have closed that were not opened they are no count of brackets. But
from an opening bracket on, and until it is closed, they stay above its own depth. There
they go up and down with the brackets that open and close (`Cursor.next_counted`), and the
first bracket that closes at the depth of the opening one is the first place at which the
count of brackets from there is back at zero (`closeOf?_partner`).
-/
import Concord.Proofs.Code.Top
import Mathlib.Order.Bounds.Image
import Mathlib.Order.Nat

namespace Concord.Code

open Text

/-- At place `p` stands a character of code. -/
def CodeAt (cells : List Cell) (p : Nat) : Prop :=
  ∃ cell, cells[p]? = some cell ∧ cell.depth.isSome = true

/-- At place `o` stands a character of code that opens a bracket. -/
def OpensAt (cells : List Cell) (o : Nat) : Prop :=
  ∃ cell, cells[o]? = some cell ∧ cell.depth.isSome = true ∧ isOpening cell.char = true

/-- The cells from place `o` to place `p`, both included. -/
def stretch (cells : List Cell) (o p : Nat) : List Cell := (cells.take (p + 1)).drop o

/-- The count of brackets from place `o` to place `p`: one more for each that opens in code, one less for
each that closes there. It may fall below zero. -/
def bracketCount (cells : List Cell) (o p : Nat) : Int :=
  openings (stretch cells o p) - closings (stretch cells o p)

/-- The places of code after `o` at which the count of brackets from `o` is zero. -/
def returns (cells : List Cell) (o : Nat) : Set Nat :=
  {p | o < p ∧ CodeAt cells p ∧ bracketCount cells o p = 0}

/-! ## Counting on with brackets open -/

/-- The places of code at which none of `n` brackets open before these cells is open any more. -/
def returnsFrom (n : Nat) (cells : List Cell) : Set Nat :=
  {i | CodeAt cells i ∧ n + openings (cells.take (i + 1)) = closings (cells.take (i + 1))}

/-- While a bracket is open, the place where none is comes later. -/
theorem returnsFrom_cons {n m : Nat} {cell : Cell} (hcount : m + closings [cell] = n + openings [cell])
    (hm : m ≠ 0) (cells : List Cell) : returnsFrom n (cell :: cells) = (· + 1) '' returnsFrom m cells := by
  ext i
  cases i with
  | zero =>
    refine iff_of_false ?_ ?_
    · rintro ⟨-, hzero⟩
      rw [Nat.zero_add, List.take_succ_cons, List.take_zero] at hzero
      omega
    · rintro ⟨j, -, hj⟩
      exact Nat.succ_ne_zero j hj
  | succ i =>
    have hstep : n + openings (cell :: cells.take (i + 1)) = closings (cell :: cells.take (i + 1)) ↔
        m + openings (cells.take (i + 1)) = closings (cells.take (i + 1)) := by
      rw [openings_cons, closings_cons]
      omega
    simp [returnsFrom, CodeAt, hstep]

/-- From a bracket on, the count is that of what follows with one bracket open. -/
theorem returns_append {cell : Cell} (hcode : cell.depth.isSome = true) (hopens : isOpening cell.char = true)
    (before later : List Cell) : returns (before ++ cell :: later) before.length =
      (· + (before.length + 1)) '' returnsFrom 1 later := by
  have hopenings : openings [cell] = 1 := by simp [openings, hcode, hopens]
  have hclosings : closings [cell] = 0 := by simp [closings, (not_opens_of_isOpening hopens .start).2]
  have hcount (i : Nat) : i + (before.length + 1) ∈ returns (before ++ cell :: later) before.length ↔
      i ∈ returnsFrom 1 later := by
    have hat : (before ++ cell :: later)[i + (before.length + 1)]? = later[i]? := by
      rw [List.getElem?_append_right (by omega), ← Nat.add_assoc, Nat.add_right_comm, Nat.add_sub_cancel,
        List.getElem?_cons_succ]
    have hstretch : stretch (before ++ cell :: later) before.length (i + (before.length + 1)) =
        cell :: later.take (i + 1) := by
      have hlength : i + (before.length + 1) + 1 - before.length = i + 1 + 1 := by omega
      rw [stretch, List.drop_take, hlength, List.drop_left, List.take_succ_cons]
    simp only [returns, returnsFrom, CodeAt, bracketCount, hat, hstretch, Set.mem_ofPred_eq]
    rw [openings_cons, closings_cons, hopenings, hclosings]
    constructor
    · rintro ⟨-, hcode, hzero⟩
      exact ⟨hcode, by omega⟩
    · rintro ⟨hcode, hzero⟩
      exact ⟨by omega, hcode, by omega⟩
  ext p
  constructor
  · intro hp
    obtain ⟨i, rfl⟩ := Nat.exists_eq_add_of_le' hp.1
    exact ⟨i, (hcount i).1 hp, rfl⟩
  · rintro ⟨i, hi, rfl⟩
    exact (hcount i).2 hi

theorem isLeast_image_add_iff {s : Set Nat} {n i : Nat} :
    IsLeast ((· + n) '' s) i ↔ ∃ j, IsLeast s j ∧ j + n = i := by
  have hmono : StrictMono fun j : Nat => j + n := fun _ _ h => Nat.add_lt_add_right h n
  constructor
  · intro h
    obtain ⟨j, -, rfl⟩ := h.1
    exact ⟨j, hmono.map_isLeast.1 h, rfl⟩
  · rintro ⟨j, hj, rfl⟩
    exact hmono.map_isLeast.2 hj

/-! ## Depths above an open bracket -/

/-- Above depth `d` the depth goes with the number of open brackets, and this falls to zero exactly at a
bracket that closes at `d`. -/
theorem Cursor.next_counted {k : Cursor} {d n : Nat} (hk : k.depth = d + n) (hn : 0 < n) (c : Char) :
    ∃ m, (k.next c).depth = d + m ∧ m + closings [k.cell c] = n + openings [k.cell c] ∧
      ((k.cell c).closesAt d = true ↔ m = 0) := by
  rcases k.read_cases c with ⟨hcell, hdepth, -⟩ | ⟨ho, hl, hcell, hdepth, -⟩ |
    ⟨ho, hl, hcell, hdepth, -⟩ | ⟨ho, hl, hcell, hdepth, -⟩
  · refine ⟨n, hdepth.trans hk, by simp [openings, closings, hcell], iff_of_false ?_ (by omega)⟩
    simp [Cell.closesAt, hcell]
  · refine ⟨n + 1, by omega, by simp [openings, closings, hcell, ho, hl], iff_of_false ?_ (by omega)⟩
    simp [Cell.closesAt, hcell, hl]
  · have hopenings : openings [k.cell c] = 0 := by simp [openings, hcell, ho]
    have hclosings : closings [k.cell c] = 1 := by simp [closings, hcell, hl]
    refine ⟨n - 1, by omega, by omega, ?_⟩
    simp only [Cell.closesAt, hcell, hl, Bool.and_true, beq_iff_eq, Option.some.injEq]
    omega
  · refine ⟨n, hdepth.trans hk, by simp [openings, closings, hcell, ho, hl], iff_of_false ?_ (by omega)⟩
    simp [Cell.closesAt, hcell, hl]

/-- With `n` brackets open above depth `d`, the first bracket that closes at `d` stands where first none
of them is open. -/
theorem Cursor.findIdx?_closesAt {k : Cursor} {d n : Nat} (hk : k.depth = d + n) (hn : 0 < n) (t : Text)
    (i : Nat) : (scanFrom k t).findIdx? (Cell.closesAt d) = some i ↔
      IsLeast (returnsFrom n (scanFrom k t)) i := by
  -- `k.depth = d + n` is kept until `n` is zero, and there the search is at its end
  induction t generalizing k n i with
  | nil =>
    refine iff_of_false (by simp [scanFrom]) ?_
    rintro ⟨⟨⟨cell, hcell, -⟩, -⟩, -⟩
    simp [scanFrom] at hcell
  | cons c t ih =>
    obtain ⟨m, hdepth, hcount, hcloses⟩ := next_counted hk hn c
    rw [scanFrom, List.findIdx?_cons]
    by_cases hm : m = 0
    · have hhere := hcloses.2 hm
      have hcode : (k.cell c).depth.isSome = true := by
        simp only [Cell.closesAt, Bool.and_eq_true, beq_iff_eq] at hhere
        rw [hhere.1, Option.isSome_some]
      have hzero : IsLeast (returnsFrom n (k.cell c :: scanFrom (k.next c) t)) 0 := by
        refine ⟨⟨⟨k.cell c, rfl, hcode⟩, ?_⟩, fun _ _ => Nat.zero_le _⟩
        rw [Nat.zero_add, List.take_succ_cons, List.take_zero]
        omega
      rw [hhere, if_pos rfl, Option.some.injEq]
      exact ⟨fun h => h ▸ hzero, hzero.unique⟩
    · have hlater : (k.cell c).closesAt d = false := Bool.eq_false_iff.2 fun h => hm (hcloses.1 h)
      rw [hlater, if_neg Bool.false_ne_true, returnsFrom_cons hcount hm, isLeast_image_add_iff,
        Option.map_eq_some_iff]
      simp only [ih hdepth (Nat.pos_of_ne_zero hm)]

/-! ## Partners -/

theorem exists_cell {t : Text} {p : Nat} {cell : Cell} (h : (scan t)[p]? = some cell) :
    ∃ u v, t = u ++ cell.char :: v ∧ u.length = p ∧ (Cursor.start.after u).cell cell.char = cell := by
  have hchar : t[p]? = some cell.char := by
    have hmap : (scan t).map Cell.char = t := map_char_scanFrom .start t
    rw [← hmap, List.getElem?_map, h, Option.map_some]
  obtain ⟨u, v, rfl, rfl⟩ := exists_place hchar
  refine ⟨u, v, rfl, rfl, ?_⟩
  rw [scan_place, List.getElem?_append_right (by simp)] at h
  simpa using h

theorem closeOf?_eq_some_iff_isLeast {t : Text} {o : Nat} (ho : OpensAt (scan t) o) (p : Nat) :
    closeOf? t o = some p ↔ IsLeast (returns (scan t) o) p := by
  obtain ⟨cell, hat, hcode, hopens⟩ := ho
  obtain ⟨u, v, rfl, rfl, hcell⟩ := exists_cell hat
  obtain ⟨d, hd⟩ := Option.isSome_iff_exists.1 hcode
  have hdepth := Cursor.depth_next_opening hopens (hcell.symm ▸ hd)
  have hreturns := returns_append hcode hopens (scan u)
    (scanFrom ((Cursor.start.after u).next cell.char) v)
  rw [length_scan] at hreturns
  rw [closeOf?_place, scan_place, hcell, hd, Option.bind_some, hreturns, isLeast_image_add_iff,
    Option.map_eq_some_iff]
  simp only [Cursor.findIdx?_closesAt hdepth Nat.one_pos]

/-- **A bracket is closed by its partner**: the first later place of code at which the count of brackets
from the bracket on is back at zero. Where there is no such place, none is found. -/
theorem closeOf?_partner {t : Text} {o : Nat} (ho : OpensAt (scan t) o) :
    (∀ p, closeOf? t o = some p ↔ IsLeast (returns (scan t) o) p) ∧
    (closeOf? t o = none ↔ returns (scan t) o = ∅) := by
  have hsome := closeOf?_eq_some_iff_isLeast ho
  refine ⟨hsome, fun hnone => ?_, fun hempty => ?_⟩
  · classical
    refine Set.eq_empty_iff_forall_notMem.2 fun p hp => ?_
    have hleast : IsLeast (returns (scan t) o) (Nat.find ⟨p, hp⟩) :=
      ⟨Nat.find_spec ⟨p, hp⟩, fun _ => Nat.find_min' _⟩
    rw [(hsome _).2 hleast] at hnone
    cases hnone
  · refine Option.eq_none_iff_forall_ne_some.2 fun p hp => ?_
    have hmem := ((hsome p).1 hp).1
    rw [hempty] at hmem
    exact hmem

/-- Two brackets close before any opens, one more closes in a literal, and the last is left open. -/
theorem closeOf?_partner_surplus :
    (OpensAt (scan ")] f(a[')'], x) + (y".toList) 4 ∧ closeOf? ")] f(a[')'], x) + (y".toList 4 = some 14 ∧
      IsLeast (returns (scan ")] f(a[')'], x) + (y".toList) 4) 14) ∧
    (OpensAt (scan ")] f(a[')'], x) + (y".toList) 18 ∧ closeOf? ")] f(a[')'], x) + (y".toList 18 = none ∧
      returns (scan ")] f(a[')'], x) + (y".toList) 18 = ∅) := by
  have hcall : OpensAt (scan ")] f(a[')'], x) + (y".toList) 4 := ⟨⟨'(', some 0⟩, by decide, rfl, rfl⟩
  have hopen : OpensAt (scan ")] f(a[')'], x) + (y".toList) 18 := ⟨⟨'(', some 0⟩, by decide, rfl, rfl⟩
  have hcloses : closeOf? ")] f(a[')'], x) + (y".toList 4 = some 14 := by decide
  have hnone : closeOf? ")] f(a[')'], x) + (y".toList 18 = none := by decide
  exact ⟨⟨hcall, hcloses, ((closeOf?_partner hcall).1 14).1 hcloses⟩,
    hopen, hnone, (closeOf?_partner hopen).2.1 hnone⟩

end Concord.Code
