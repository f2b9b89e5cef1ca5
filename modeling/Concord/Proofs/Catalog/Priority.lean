/-
The order of the rules by which a name is resolved: the name itself, then one that agrees with it
but for letter case and underscores, then one that agrees so with its singular. The last two rules
are one search through the known names in their order, so that a singular that stands before every
name of the second rule is found in its place. That is the only way in which the order of the
rules is not kept (`resolve?_prioritised_iff`).
-/
import Concord.Catalog
import Concord.Proofs.Order.NameSet

namespace Concord.Catalog

open Naming Text

/-- Whether a known name agrees with `name` but for letter case and underscores. -/
def Folds (name known : String) : Prop := squash known.toList = squash (trim name.toList)

/-- Whether a known name agrees with the singular of `name` in snake case but for letter case and
underscores. -/
def Singles (name known : String) : Prop :=
  squash known.toList = squash (singular (snake (trim name.toList)))

instance (name known : String) : Decidable (Folds name known) :=
  inferInstanceAs (Decidable (squash known.toList = squash (trim name.toList)))

instance (name known : String) : Decidable (Singles name known) :=
  inferInstanceAs (Decidable (squash known.toList = squash (singular (snake (trim name.toList)))))

/-- The answers that the rules allow in their order: each holds only where none before it does. -/
inductive Prioritised (c : Catalog) (name : String) : Option String → Prop where
  | same (hsame : c.contains (trimmed name) = true) : Prioritised c name (some (trimmed name))
  | folded {known : String} (hsame : c.contains (trimmed name) = false)
      (hknown : known ∈ c.names.names) (hfolds : Folds name known) : Prioritised c name (some known)
  | singular {known : String} (hsame : c.contains (trimmed name) = false)
      (hfolds : ∀ k ∈ c.names.names, ¬ Folds name k) (hknown : known ∈ c.names.names)
      (hsingles : Singles name known) : Prioritised c name (some known)
  | unknown (hsame : c.contains (trimmed name) = false)
      (hfolds : ∀ k ∈ c.names.names, ¬ Folds name k)
      (hsingles : ∀ k ∈ c.names.names, ¬ Singles name k) : Prioritised c name none

/-- The second rule has an answer, but a name by the third stands before all of its answers. -/
structure Overtaken (c : Catalog) (name : String) : Prop where
  strange : c.contains (trimmed name) = false
  foldable : ∃ k ∈ c.names.names, Folds name k
  before : ∃ s ∈ c.names.names, Singles name s ∧ ∀ k ∈ c.names.names, Folds name k → s < k

/-! ## The search -/

theorem resolve?_of_contains {c : Catalog} {name : String} (h : c.contains (trimmed name) = true) :
    c.resolve? name = some (trimmed name) := if_pos h

/-- A name that is not known itself means the first by either of the two other rules. -/
theorem resolve?_of_not_contains {c : Catalog} {name : String}
    (h : c.contains (trimmed name) = false) :
    c.resolve? name = c.names.names.find? fun k => decide (Folds name k ∨ Singles name k) := by
  have hsearch : c.resolve? name = c.names.names.find? fun k =>
      [squash (trim name.toList), squash (singular (snake (trim name.toList)))].contains
        (squash k.toList) := if_neg (Bool.eq_false_iff.1 h)
  rw [hsearch]
  congr 1
  funext k
  rw [Bool.eq_iff_iff, List.contains_iff_mem, decide_eq_true_iff]
  simp only [List.mem_cons, List.not_mem_nil, or_false, Folds, Singles]

/-- Where the search finds nothing, no name follows either rule. -/
theorem prioritised_of_none {c : Catalog} {name : String} (h : c.contains (trimmed name) = false)
    (hnone : c.resolve? name = none) : Prioritised c name none ∧ ¬ Overtaken c name := by
  rw [resolve?_of_not_contains h, List.find?_eq_none] at hnone
  have hrules : ∀ k ∈ c.names.names, ¬ Folds name k ∧ ¬ Singles name k := fun k hk =>
    not_or.1 (by simpa using hnone k hk)
  refine ⟨.unknown h (fun k hk => (hrules k hk).1) fun k hk => (hrules k hk).2, fun hover => ?_⟩
  obtain ⟨k, hk, hfolds⟩ := hover.foldable
  exact (hrules k hk).1 hfolds

/-- What the search finds follows one of the rules, and nothing before it does. -/
theorem found_of_some {c : Catalog} {name found : String} (h : c.contains (trimmed name) = false)
    (hfound : c.resolve? name = some found) :
    found ∈ c.names.names ∧ (Folds name found ∨ Singles name found) ∧
      ∀ k ∈ c.names.names, Folds name k ∨ Singles name k → found = k ∨ found < k := by
  rw [resolve?_of_not_contains h] at hfound
  have hrule := List.find?_some hfound
  refine ⟨List.mem_of_find?_eq_some hfound, of_decide_eq_true hrule, fun k hk hk' => ?_⟩
  exact c.names.eq_or_lt_of_find? hfound hk (decide_eq_true hk')

/-! ## The order of the rules -/

/-- A name is overtaken exactly if it means one by its singular although another agrees with it as
it is. -/
theorem overtaken_iff {c : Catalog} {name : String} : Overtaken c name ↔
    ∃ found, c.resolve? name = some found ∧ Singles name found ∧ ¬ Folds name found ∧
      c.contains (trimmed name) = false ∧ ∃ k ∈ c.names.names, Folds name k := by
  constructor
  · intro h
    obtain ⟨s, hs, hsingles, hbefore⟩ := h.before
    cases hfound : c.resolve? name with
    | none => exact absurd h (prioritised_of_none h.strange hfound).2
    | some found =>
      obtain ⟨hknown, hrule, hfirst⟩ := found_of_some h.strange hfound
      have hnot : ¬ Folds name found := by
        intro hfolds
        have hlt := hbefore found hknown hfolds
        rcases hfirst s hs (.inr hsingles) with rfl | hgt
        · exact String.lt_irrefl _ hlt
        · exact String.lt_asymm hlt hgt
      exact ⟨found, rfl, hrule.resolve_left hnot, hnot, h.strange, h.foldable⟩
  · rintro ⟨found, hfound, hsingles, hnot, hstrange, hfoldable⟩
    obtain ⟨hknown, -, hfirst⟩ := found_of_some hstrange hfound
    refine ⟨hstrange, hfoldable, found, hknown, hsingles, fun k hk hfolds => ?_⟩
    exact (hfirst k hk (.inl hfolds)).resolve_left fun heq => hnot (heq ▸ hfolds)

theorem not_overtaken_of_prioritised {c : Catalog} {name : String}
    (h : Prioritised c name (c.resolve? name)) : ¬ Overtaken c name := by
  rw [overtaken_iff]
  rintro ⟨found, hfound, -, hnot, hstrange, k, hk, hfolds⟩
  rw [hfound] at h
  cases h with
  | same hsame => exact Bool.eq_false_iff.1 hstrange hsame
  | folded _ _ hfound => exact hnot hfound
  | singular _ hnone _ _ => exact hnone k hk hfolds

theorem prioritised_of_not_overtaken {c : Catalog} {name : String} (h : ¬ Overtaken c name) :
    Prioritised c name (c.resolve? name) := by
  cases hsame : c.contains (trimmed name) with
  | true =>
    rw [resolve?_of_contains hsame]
    exact .same hsame
  | false =>
    cases hfound : c.resolve? name with
    | none => exact (prioritised_of_none hsame hfound).1
    | some found =>
      obtain ⟨hknown, hrule, -⟩ := found_of_some hsame hfound
      by_cases hfolds : Folds name found
      · exact .folded hsame hknown hfolds
      · have hsingles := hrule.resolve_left hfolds
        refine .singular hsame (fun k hk hk' => h ?_) hknown hsingles
        exact overtaken_iff.2 ⟨found, hfound, hsingles, hfolds, hsame, k, hk, hk'⟩

/-- **A name is resolved in the order of the rules exactly if it is not overtaken**, and one that is
overtaken means a name by its singular although another agrees with it as it is. -/
theorem resolve?_prioritised_iff (c : Catalog) (name : String) :
    (Prioritised c name (c.resolve? name) ↔ ¬ Overtaken c name) ∧
      (Overtaken c name ↔ ∃ found, c.resolve? name = some found ∧ Singles name found ∧
        ¬ Folds name found ∧ c.contains (trimmed name) = false ∧ ∃ k ∈ c.names.names, Folds name k) :=
  ⟨⟨not_overtaken_of_prioritised, prioritised_of_not_overtaken⟩, overtaken_iff⟩

/-- Of a name in the plural and one in the singular the singular comes first in the catalog, so that
the plural in small letters means it. -/
theorem plural_overtaken :
    (ofNames ["User", "Users"]).resolve? "users" = some "User" ∧ Folds "users" "Users" ∧
      ¬ Prioritised (ofNames ["User", "Users"]) "users"
        ((ofNames ["User", "Users"]).resolve? "users") := by
  have hfound : (ofNames ["User", "Users"]).resolve? "users" = some "User" := by decide +kernel
  have hfolds : Folds "users" "Users" := by decide +kernel
  refine ⟨hfound, hfolds, fun h => not_overtaken_of_prioritised h (overtaken_iff.2 ?_)⟩
  exact ⟨"User", hfound, by decide +kernel, by decide +kernel, by decide +kernel, "Users",
    by decide +kernel, hfolds⟩

end Concord.Catalog
