/-
Sets of names as lists: a set is the set of its own names, in their order
(`ofList_names`).
-/
import Concord.Order.NameSet

namespace Concord.NameSet

/-- A name after all others is put at the end. -/
theorem insertName_of_lt {name : String} {names : List String} (h : ∀ n ∈ names, n < name) :
    insertName name names = names ++ [name] := by
  induction names with
  | nil => rfl
  | cons n rest ih =>
    have hn : n < name := h n (by simp)
    have hnot : ¬ name < n := String.lt_asymm hn
    simp only [insertName, hnot, hn, ↓reduceIte, List.cons_append]
    rw [ih fun m hm => h m (by simp [hm])]

/-- Increasing names that follow those of a set are put in one after the other. -/
theorem foldl_insert_names (names : List String) (s : NameSet)
    (h : (s.names ++ names).Pairwise (fun a b => a < b)) :
    (names.foldl insert s).names = s.names ++ names := by
  induction names generalizing s with
  | nil => simp
  | cons name rest ih =>
    have hlast : ∀ n ∈ s.names, n < name := fun n hn =>
      (List.pairwise_append.1 h).2.2 n hn name (by simp)
    have hnames : (s.insert name).names = s.names ++ [name] := insertName_of_lt hlast
    rw [List.foldl_cons, ih (s.insert name) (by simpa [hnames] using h), hnames]
    simp

theorem eq_of_names {s t : NameSet} (h : s.names = t.names) : s = t := by
  cases s
  cases t
  simpa using h

/-- A set is the set of its names. -/
theorem ofList_names (s : NameSet) : ofList s.names = s := by
  have h : (ofList s.names).names = s.names := foldl_insert_names s.names empty s.increasing
  exact eq_of_names h

theorem eq_empty_of_isEmpty {s : NameSet} (h : s.isEmpty = true) : s = .empty :=
  eq_of_names (List.isEmpty_iff.1 h)

/-- The first name for which a test holds stands before all others for which it does. -/
theorem eq_or_lt_of_find? (s : NameSet) {p : String → Bool} {a b : String}
    (h : s.names.find? p = some a) (hb : b ∈ s.names) (hp : p b = true) : a = b ∨ a < b := by
  obtain ⟨-, left, right, hnames, hleft⟩ := List.find?_eq_some_iff_append.1 h
  have hincreasing := s.increasing
  rw [hnames] at hb hincreasing
  rcases List.mem_append.1 hb with hb | hb
  · have hnot := hleft b hb
    simp [hp] at hnot
  · rcases List.mem_cons.1 hb with rfl | hb
    · exact .inl rfl
    · exact .inr ((List.pairwise_cons.1 (List.pairwise_append.1 hincreasing).2.1).1 b hb)

end Concord.NameSet
