/-
Sets of names, listed in increasing order.
-/
namespace Concord

/-- A set of names. -/
structure NameSet where
  names : List String
  increasing : names.Pairwise (fun a b => a < b)
deriving DecidableEq

namespace NameSet

/-- Puts a name into its place; one that is there already stays. -/
def insertName (name : String) : List String → List String
  | [] => [name]
  | n :: rest =>
    if name < n then name :: n :: rest
    else if n < name then n :: insertName name rest
    else n :: rest

theorem mem_insertName {name x : String} {names : List String} :
    x ∈ insertName name names ↔ x = name ∨ x ∈ names := by
  induction names with
  | nil => simp [insertName]
  | cons n rest ih =>
    simp only [insertName]
    split
    · simp
    · split
      · simp only [List.mem_cons, ih]
        grind
      · rename_i h1 h2
        have : name = n := String.le_antisymm (String.not_lt.1 h2) (String.not_lt.1 h1)
        subst this
        simp

theorem increasing_insertName (name : String) {names : List String}
    (h : names.Pairwise (fun a b => a < b)) :
    (insertName name names).Pairwise (fun a b => a < b) := by
  induction names with
  | nil => simp [insertName]
  | cons n rest ih =>
    rw [List.pairwise_cons] at h
    simp only [insertName]
    split
    · rename_i hlt
      refine List.pairwise_cons.2 ⟨?_, List.pairwise_cons.2 h⟩
      intro a ha
      rcases List.mem_cons.1 ha with rfl | ha
      · exact hlt
      · exact String.lt_trans hlt (h.1 a ha)
    · split
      · rename_i hgt
        refine List.pairwise_cons.2 ⟨?_, ih h.2⟩
        intro a ha
        rcases mem_insertName.1 ha with rfl | ha
        · exact hgt
        · exact h.1 a ha
      · exact List.pairwise_cons.2 h

theorem increasing_nil : ([] : List String).Pairwise (fun a b => a < b) := List.Pairwise.nil

def empty : NameSet := ⟨[], increasing_nil⟩

instance : Inhabited NameSet := ⟨empty⟩

def insert (s : NameSet) (name : String) : NameSet :=
  ⟨insertName name s.names, increasing_insertName name s.increasing⟩

/-- The set of the given names. -/
def ofList (names : List String) : NameSet := names.foldl insert empty

def contains (s : NameSet) (name : String) : Bool := s.names.contains name

def size (s : NameSet) : Nat := s.names.length

def isEmpty (s : NameSet) : Bool := s.names.isEmpty

end NameSet

end Concord
