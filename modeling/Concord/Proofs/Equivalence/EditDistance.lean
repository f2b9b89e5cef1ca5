/-
The row-by-row program computes the edit distance. Its rows hold the distances between
beginnings of the two texts (`lastRow_row`), taken by the recursion on last characters, and
that recursion gives the least number of single edits (`isLeast_distance`). What a least
number of edits has, the program has: it is symmetric, obeys the triangle inequality and
tells equal texts from others (`editDistance_least_edits`).
-/
import Concord.Equivalence.EditDistance
import Mathlib.Order.Bounds.Defs

namespace Concord.Equivalence

/-! ## Edits -/

/-- One character is inserted, deleted or replaced somewhere in a text. -/
inductive Edit : Text → Text → Prop where
  | insert (u v : Text) (c : Char) : Edit (u ++ v) (u ++ c :: v)
  | delete (u v : Text) (c : Char) : Edit (u ++ c :: v) (u ++ v)
  | replace (u v : Text) (c d : Char) : Edit (u ++ c :: v) (u ++ d :: v)

/-- `n` edits, one after the other, make the second text of the first. -/
inductive Edits : Nat → Text → Text → Prop where
  | none (a : Text) : Edits 0 a a
  | step {n : Nat} {a b c : Text} (first : Edit a b) (rest : Edits n b c) : Edits (n + 1) a c

variable {a b c : Text} {m n : Nat}

theorem Edit.symm (h : Edit a b) : Edit b a := by
  cases h with
  | insert u v c => exact .delete u v c
  | delete u v c => exact .insert u v c
  | replace u v c d => exact .replace u v d c

theorem Edit.cons (h : Edit a b) (x : Char) : Edit (x :: a) (x :: b) := by
  cases h with
  | insert u v c => exact .insert (x :: u) v c
  | delete u v c => exact .delete (x :: u) v c
  | replace u v c d => exact .replace (x :: u) v c d

theorem Edit.reverse (h : Edit a b) : Edit a.reverse b.reverse := by
  cases h with
  | insert u v c => simpa using Edit.insert v.reverse u.reverse c
  | delete u v c => simpa using Edit.delete v.reverse u.reverse c
  | replace u v c d => simpa using Edit.replace v.reverse u.reverse c d

theorem Edits.append (h : Edits m a b) (h' : Edits n b c) : Edits (m + n) a c := by
  induction h with
  | none a => rwa [Nat.zero_add]
  | step first _ ih =>
    rw [Nat.add_right_comm]
    exact .step first (ih h')

theorem Edits.symm (h : Edits n a b) : Edits n b a := by
  induction h with
  | none a => exact .none a
  | step first _ ih => exact ih.append (.step first.symm (.none _))

/-- What single edits keep, several of them keep. -/
theorem Edits.map {f : Text → Text} (hf : ∀ a b, Edit a b → Edit (f a) (f b)) (h : Edits n a b) :
    Edits n (f a) (f b) := by
  induction h with
  | none a => exact .none (f a)
  | step first _ ih => exact .step (hf _ _ first) ih

theorem Edits.cons (h : Edits n a b) (x : Char) : Edits n (x :: a) (x :: b) :=
  h.map (f := (x :: ·)) fun _ _ first => first.cons x

theorem edits_reverse_iff : Edits n a.reverse b.reverse ↔ Edits n a b := by
  refine ⟨fun h => ?_, fun h => h.map fun _ _ => Edit.reverse⟩
  have h' := h.map (f := List.reverse) fun _ _ => Edit.reverse
  rwa [List.reverse_reverse, List.reverse_reverse] at h'

theorem edits_zero_iff : Edits 0 a b ↔ a = b := by
  refine ⟨fun h => ?_, fun h => h ▸ .none a⟩
  cases h
  rfl

theorem edits_nil_left : ∀ b : Text, Edits b.length [] b
  | [] => .none []
  | d :: b => .step (.insert [] [] d) ((edits_nil_left b).cons d)

/-! ## The distance by recursion -/

/-- The distance by first characters: the first of either text goes, or they are put against each
other. -/
def distance : Text → Text → Nat
  | [], b => b.length
  | c :: a, [] => (c :: a).length
  | c :: a, d :: b =>
    min (min (distance a b + if c = d then 0 else 1) (distance a (d :: b) + 1)) (distance (c :: a) b + 1)
termination_by a b => a.length + b.length

@[simp] theorem distance_nil_left (b : Text) : distance [] b = b.length := by rw [distance]

@[simp] theorem distance_nil_right (a : Text) : distance a [] = a.length := by
  cases a <;> rw [distance]

theorem distance_cons (c d : Char) (a b : Text) : distance (c :: a) (d :: b) =
    min (min (distance a b + if c = d then 0 else 1) (distance a (d :: b) + 1))
      (distance (c :: a) b + 1) := by
  rw [distance]

theorem distance_choice (c d : Char) (a b : Text) :
    distance (c :: a) (d :: b) = distance a b + (if c = d then 0 else 1) ∨
      distance (c :: a) (d :: b) = distance a (d :: b) + 1 ∨
      distance (c :: a) (d :: b) = distance (c :: a) b + 1 := by
  rw [distance_cons]
  omega

theorem distance_le_replace (c d : Char) (a b : Text) :
    distance (c :: a) (d :: b) ≤ distance a b + if c = d then 0 else 1 := by
  rw [distance_cons]
  omega

theorem distance_le_delete (c : Char) (a b : Text) : distance (c :: a) b ≤ distance a b + 1 := by
  cases b with
  | nil => simp
  | cons d b =>
    rw [distance_cons]
    omega

theorem distance_le_insert (d : Char) (a b : Text) : distance a (d :: b) ≤ distance a b + 1 := by
  cases a with
  | nil => simp
  | cons c a =>
    rw [distance_cons]
    omega

/-- As many edits as the distance are enough. -/
theorem edits_distance : ∀ a b : Text, Edits (distance a b) a b
  | [], b => by
    rw [distance_nil_left]
    exact edits_nil_left b
  | c :: a, [] => by
    rw [distance_nil_right]
    exact (edits_nil_left (c :: a)).symm
  | c :: a, d :: b => by
    rcases distance_choice c d a b with h | h | h
    · rw [h]
      split
      · rename_i heq
        exact heq ▸ (edits_distance a b).cons c
      · exact .step (.replace [] a c d) ((edits_distance a b).cons d)
    · rw [h]
      exact .step (.delete [] a c) (edits_distance a (d :: b))
    · rw [h]
      exact (edits_distance (c :: a) b).append (.step (.insert [] b d) (.none _))
termination_by a b => a.length + b.length

/-! ## No edit saves more than one -/

/-- The first text is at most one further from every text than the second. -/
def Near (a a' : Text) : Prop := ∀ b, distance a b ≤ distance a' b + 1

theorem near_delete (c : Char) (a : Text) : Near (c :: a) a := distance_le_delete c a

theorem near_insert (c : Char) (a : Text) : Near a (c :: a) := by
  intro b
  induction b with
  | nil =>
    simp only [distance_nil_right, List.length_cons]
    omega
  | cons d b ih =>
    have hinsert := distance_le_insert d a b
    rcases distance_choice c d a b with h | h | h <;> omega

theorem near_replace (c d : Char) (a : Text) : Near (c :: a) (d :: a) := by
  intro b
  induction b with
  | nil => simp
  | cons e b ih =>
    have hreplace := distance_le_replace c e a b
    have hdelete := distance_le_delete c a (e :: b)
    have hinsert := distance_le_insert e (c :: a) b
    rcases distance_choice d e a b with h | h | h
    · split at hreplace <;> omega
    · omega
    · omega

/-- Texts with the same first character are near if what follows is. -/
theorem Near.cons {a a' : Text} (h : Near a a') (c : Char) : Near (c :: a) (c :: a') := by
  intro b
  induction b with
  | nil =>
    have hnil := h []
    simp only [distance_nil_right, List.length_cons] at hnil ⊢
    omega
  | cons d b ih =>
    have hreplace := distance_le_replace c d a b
    have hdelete := distance_le_delete c a (d :: b)
    have hinsert := distance_le_insert d (c :: a) b
    have hrest := h b
    have hwhole := h (d :: b)
    rcases distance_choice c d a' b with h | h | h <;> omega

theorem Near.append {a a' : Text} (h : Near a a') (u : Text) : Near (u ++ a) (u ++ a') := by
  induction u with
  | nil => exact h
  | cons c u ih => exact ih.cons c

theorem Edit.near (h : Edit a b) : Near a b := by
  cases h with
  | insert u v c => exact (near_insert c v).append u
  | delete u v c => exact (near_delete c v).append u
  | replace u v c d => exact (near_replace c d v).append u

theorem distance_self (a : Text) : distance a a = 0 := by
  induction a with
  | nil => simp
  | cons c a ih =>
    have h := distance_le_replace c c a a
    rw [if_pos rfl] at h
    omega

/-- Fewer edits than the distance are not enough. -/
theorem Edits.distance_le (h : Edits n a b) : distance a b ≤ n := by
  induction h with
  | none a => exact Nat.le_of_eq (distance_self a)
  | @step n a b c first _ ih =>
    have hfirst := first.near c
    omega

/-- The distance by recursion is the least number of edits. -/
theorem isLeast_distance (a b : Text) : IsLeast {n | Edits n a b} (distance a b) :=
  ⟨edits_distance a b, fun _ h => Edits.distance_le h⟩

theorem distance_le_max (a b : Text) : distance a b ≤ max a.length b.length := by
  induction a generalizing b with
  | nil => simp
  | cons c a ih =>
    cases b with
    | nil => simp
    | cons d b =>
      have hreplace := distance_le_replace c d a b
      have hrest := ih b
      simp only [List.length_cons]
      split at hreplace <;> omega

/-! ## The rows of the program -/

/-- The distances of `r` from `u` with more and more characters before it. -/
def entries (r u : Text) : Text → List Nat
  | [] => []
  | d :: b => distance r (d :: u) :: entries r (d :: u) b

/-- The row of a beginning of the first text, which is read backwards in `r`. -/
def row (r b : Text) : List Nat := distance r [] :: entries r [] b

/-- One entry after the other, the next row is that of a beginning with one more character. -/
theorem nextEntries_entries (c : Char) (r u b : Text) :
    nextEntries c (distance r u) (distance (c :: r) u) b (entries r u b) = entries (c :: r) u b := by
  induction b generalizing u with
  | nil => rfl
  | cons d b ih =>
    simp only [entries, nextEntries]
    rw [← distance_cons c d r u, ih]

theorem nextRow_row (c : Char) (r b : Text) : nextRow c b (row r b) = row (c :: r) b := by
  have hfirst : distance r [] + 1 = distance (c :: r) [] := by simp
  rw [row, nextRow, hfirst, nextEntries_entries, row]

/-- The invariant of the rows: after a beginning of the first text the row is that of it. -/
theorem lastRow_row (a r b : Text) : lastRow b a (row r b) = row (a.reverse ++ r) b := by
  induction a generalizing r with
  | nil => rfl
  | cons c a ih => rw [lastRow, nextRow_row, ih, List.reverse_cons, List.append_assoc, List.singleton_append]

theorem entries_nil (u b : Text) : entries [] u b = List.range' (u.length + 1) b.length := by
  induction b generalizing u with
  | nil => rfl
  | cons d b ih => rw [entries, ih, distance_nil_left, List.length_cons, List.length_cons, List.range'_succ]

theorem row_nil (b : Text) : row [] b = List.range (b.length + 1) := by
  rw [row, entries_nil, distance_nil_left, List.range_eq_range', List.range'_succ]
  rfl

theorem getLast?_entries (r u b : Text) :
    (distance r u :: entries r u b).getLast? = some (distance r (b.reverse ++ u)) := by
  induction b generalizing u with
  | nil => rfl
  | cons d b ih =>
    rw [entries, List.getLast?_cons_cons, ih, List.reverse_cons, List.append_assoc, List.singleton_append]

/-- The program computes the distance of the texts read backwards. -/
theorem editDistance_eq (a b : Text) : editDistance a b = distance a.reverse b.reverse := by
  rw [editDistance, ← row_nil, lastRow_row, row, getLast?_entries]
  simp

theorem isLeast_editDistance (a b : Text) : IsLeast {n | Edits n a b} (editDistance a b) := by
  have h := isLeast_distance a.reverse b.reverse
  simp only [edits_reverse_iff] at h
  rwa [editDistance_eq]

theorem editDistance_self (a : Text) : editDistance a a = 0 := by
  rw [editDistance_eq, distance_self]

/-- **The program computes the edit distance**: the least number of characters to insert, delete and
replace. Hence it is symmetric, obeys the triangle inequality, never exceeds the longer length and is zero
for equal texts only. -/
theorem editDistance_least_edits (a b : Text) :
    IsLeast {n | Edits n a b} (editDistance a b) ∧ editDistance a b = editDistance b a ∧
      (∀ c, editDistance a c ≤ editDistance a b + editDistance b c) ∧
      editDistance a b ≤ max a.length b.length ∧ (editDistance a b = 0 ↔ a = b) := by
  have hab := isLeast_editDistance a b
  have hba := isLeast_editDistance b a
  refine ⟨hab, ?_, fun c => ?_, ?_, ?_⟩
  · exact Nat.le_antisymm (hab.2 hba.1.symm) (hba.2 hab.1.symm)
  · have hbc := isLeast_editDistance b c
    exact (isLeast_editDistance a c).2 (Edits.append hab.1 hbc.1)
  · have h := distance_le_max a.reverse b.reverse
    rwa [editDistance_eq, ← a.length_reverse, ← b.length_reverse]
  · refine ⟨fun h => ?_, fun h => h ▸ editDistance_self a⟩
    have hedits := hab.1
    rw [h] at hedits
    exact edits_zero_iff.1 hedits

end Concord.Equivalence
