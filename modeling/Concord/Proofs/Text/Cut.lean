/-
Leading parts and occurrences: what a text begins with, and what stands around the
first and the last occurrence of a pattern.
-/
import Concord.Text.Cut

namespace Concord.Text

/-- What is said of the members of a list is decided on them, however many characters there are. -/
instance (priority := high) decidableForallMem {α : Type} (l : List α) (p : α → Prop) [DecidablePred p] :
    Decidable (∀ x ∈ l, p x) := List.decidableBAll p l

/-! ## Leading parts -/

theorem startsWith_iff {t p : Text} : startsWith t p = true ↔ ∃ u, t = p ++ u := by
  rw [startsWith, List.isPrefixOf_iff_prefix]
  exact ⟨fun ⟨u, h⟩ => ⟨u, h.symm⟩, fun ⟨u, h⟩ => ⟨u, h.symm⟩⟩

@[simp] theorem startsWith_append (p u : Text) : startsWith (p ++ u) p = true :=
  startsWith_iff.2 ⟨u, rfl⟩

@[simp] theorem dropPrefix?_append (p u : Text) : dropPrefix? p (p ++ u) = some u :=
  dropPrefix?_eq_some_iff.2 rfl

theorem dropPrefix?_eq_none_iff {p t : Text} : dropPrefix? p t = none ↔ startsWith t p = false := by
  rw [← Bool.not_eq_true, startsWith_iff, Option.eq_none_iff_forall_not_mem]
  simp [dropPrefix?_eq_some_iff]

theorem startsWith_cons {c a : Char} {t p : Text} :
    startsWith (c :: t) (a :: p) = (a == c && startsWith t p) := by
  simp [startsWith, List.isPrefixOf]

/-- A character that does not stand in `p` ends the search for it. -/
theorem dropPrefix?_append_cons {p : Text} {c : Char} (h : c ∉ p) (t u : Text) :
    dropPrefix? p (t ++ c :: u) = (dropPrefix? p t).map (· ++ c :: u) := by
  induction p generalizing t with
  | nil => simp [dropPrefix?]
  | cons a p ih =>
    simp only [List.mem_cons, not_or] at h
    cases t with
    | nil => simp [dropPrefix?, Ne.symm h.1]
    | cons b t =>
      simp only [List.cons_append, dropPrefix?, ih h.2]
      split <;> rfl

theorem startsWith_eq_isSome (t p : Text) : startsWith t p = (dropPrefix? p t).isSome := by
  cases h : dropPrefix? p t with
  | none => rw [dropPrefix?_eq_none_iff.1 h, Option.isSome_none]
  | some u => rw [dropPrefix?_eq_some_iff.1 h, startsWith_append, Option.isSome_some]

theorem startsWith_append_cons {p : Text} {c : Char} (h : c ∉ p) (t u : Text) :
    startsWith (t ++ c :: u) p = startsWith t p := by
  rw [startsWith_eq_isSome, startsWith_eq_isSome, dropPrefix?_append_cons h, Option.isSome_map]

theorem dropPrefix?_of_not_mem {p t : Text} {c : Char} (hp : c ∈ p) (ht : c ∉ t) :
    dropPrefix? p t = none := by
  rw [Option.eq_none_iff_forall_not_mem]
  intro u hu
  rw [dropPrefix?_eq_some_iff.1 hu] at ht
  exact ht (List.mem_append_left u hp)

/-! ## Ends -/

theorem head?_append_some {a b : Text} {c : Char} (h : a.head? = some c) : (a ++ b).head? = some c := by
  cases a with
  | nil => simp at h
  | cons d a => exact h

theorem getLast?_append_some {a b : Text} {c : Char} (h : b.getLast? = some c) :
    (a ++ b).getLast? = some c := by
  rw [List.getLast?_append, h]
  rfl

theorem getLast?_append_cons (a : Text) (c : Char) {t : Text} (h : t ≠ []) :
    (a ++ c :: t).getLast? = t.getLast? := by
  obtain ⟨d, u, rfl⟩ := List.exists_cons_of_ne_nil h
  rw [List.getLast?_append, List.getLast?_cons_cons, List.getLast?_cons]
  rfl

theorem endsWith_char {t : Text} {c : Char} : endsWith t [c] = true ↔ t.getLast? = some c := by
  rw [endsWith, List.isSuffixOf_iff_suffix, List.getLast?_eq_some_iff]
  exact ⟨fun ⟨u, h⟩ => ⟨u, h.symm⟩, fun ⟨u, h⟩ => ⟨u, h.symm⟩⟩

theorem dropSuffix?_eq_some {p t u : Text} (h : dropSuffix? p t = some u) : t = u ++ p := by
  unfold dropSuffix? at h
  split at h
  · rename_i hends
    obtain ⟨v, rfl⟩ := List.isSuffixOf_iff_suffix.1 hends
    rw [Option.some.injEq, List.length_append, Nat.add_sub_cancel, List.take_left] at h
    rw [h]
  · cases h

/-! ## Occurrences -/

/-- A cut text is the parts and the pattern between them. -/
theorem cut?_eq_some {p t x y : Text} (h : cut? p t = some (x, y)) : t = x ++ (p ++ y) := by
  induction t generalizing x with
  | nil =>
    simp only [cut?] at h
    split at h
    · rename_i hp
      cases h
      simpa using hp
    · cases h
  | cons c t ih =>
    simp only [cut?] at h
    split at h
    · rename_i u hu
      rw [dropPrefix?_eq_some_iff] at hu
      cases h
      exact hu
    · obtain ⟨⟨x', y'⟩, hr, heq⟩ := Option.map_eq_some_iff.1 h
      cases heq
      rw [ih hr]
      rfl

theorem cutLast?_eq_some {p t x y : Text} (h : cutLast? p t = some (x, y)) : t = x ++ (p ++ y) := by
  obtain ⟨⟨x', y'⟩, hr, heq⟩ := Option.map_eq_some_iff.1 h
  cases heq
  have ht := congrArg List.reverse (cut?_eq_some hr)
  simpa using ht

theorem cutLast?_of_not_mem {p t : Text} {c : Char} (hp : c ∈ p) (ht : c ∉ t) :
    cutLast? p t = none := by
  rw [Option.eq_none_iff_forall_not_mem]
  rintro ⟨x, y⟩ hcut
  rw [cutLast?_eq_some hcut] at ht
  exact ht (List.mem_append_right x (List.mem_append_left y hp))

theorem cut?_append (p u : Text) : cut? p (p ++ u) = some ([], u) := by
  cases hcons : p ++ u with
  | nil =>
    obtain ⟨rfl, rfl⟩ := List.append_eq_nil_iff.1 hcons
    rfl
  | cons c t => rw [cut?, ← hcons, dropPrefix?_append]

/-- Nothing begins in a text without its first character. -/
theorem cut?_append_of_not_mem {c : Char} {p t : Text} (h : c ∉ t) (u : Text) :
    cut? (c :: p) (t ++ u) = (cut? (c :: p) u).map fun r => (t ++ r.1, r.2) := by
  induction t with
  | nil => simp
  | cons d t ih =>
    simp only [List.mem_cons, not_or] at h
    have hdrop : dropPrefix? (c :: p) (d :: (t ++ u)) = none := by simp [dropPrefix?, h.1]
    rw [List.cons_append, cut?, hdrop, ih h.2, Option.map_map]
    rfl

/-- The first occurrence of a character that does not stand before it. -/
theorem cut?_char {c : Char} {t : Text} (h : c ∉ t) (u : Text) : cut? [c] (t ++ c :: u) = some (t, u) := by
  have hhere : cut? [c] (c :: u) = some ([], u) := cut?_append [c] u
  rw [cut?_append_of_not_mem h, hhere, Option.map_some, List.append_nil]

theorem find?_append_of_not_mem {c : Char} {p t : Text} (h : c ∉ t) (u : Text) :
    find? (c :: p) (t ++ u) = (find? (c :: p) u).map (t.length + ·) := by
  rw [find?, cut?_append_of_not_mem h, find?, Option.map_map, Option.map_map]
  congr 1
  funext r
  exact List.length_append

/-- The last occurrence of a pattern is that after which its last character does not stand. -/
theorem cutLast?_append_of_not_mem {c : Char} {p r : Text} (hp : p.getLast? = some c) (h : c ∉ r)
    (x : Text) : cutLast? p (x ++ (p ++ r)) = some (x, r) := by
  obtain ⟨q, hq⟩ : ∃ q, p.reverse = c :: q := by
    rw [← List.head?_reverse] at hp
    exact List.head?_eq_some_iff.1 hp
  have hcut : cut? p.reverse (r.reverse ++ (p.reverse ++ x.reverse)) = some (r.reverse, x.reverse) := by
    rw [hq, cut?_append_of_not_mem (by simpa using h), cut?_append, Option.map_some, List.append_nil]
  rw [cutLast?, List.reverse_append, List.reverse_append, List.append_assoc, hcut]
  simp

theorem takeWhile_append_of_not_mem {c : Char} {t : Text} (h : c ∉ t) (u : Text) :
    (t ++ u).takeWhile (· != c) = t ++ u.takeWhile (· != c) :=
  List.takeWhile_append_of_pos fun _ hd => bne_iff_ne.2 fun heq => h (heq ▸ hd)

theorem takeWhile_of_not_mem {c : Char} {t : Text} (h : c ∉ t) : t.takeWhile (· != c) = t := by
  have htake := takeWhile_append_of_not_mem h []
  simpa using htake

/-- What stands before the first occurrence of a character is free of it. -/
theorem cut?_char_eq_some {c : Char} {t x y : Text} (h : cut? [c] t = some (x, y)) :
    x = t.takeWhile (· != c) := by
  have hfree : c ∉ x := by
    intro hmem
    obtain ⟨a, b, rfl, ha⟩ := List.eq_append_cons_of_mem hmem
    rw [cut?_eq_some h, List.append_assoc, List.cons_append, cut?_char ha] at h
    simp at h
  rw [cut?_eq_some h, takeWhile_append_of_not_mem hfree, List.singleton_append,
    List.takeWhile_cons_of_neg (by simp), List.append_nil]

theorem cut?_char_none {c : Char} {t : Text} (h : c ∉ t) : cut? [c] t = none := by
  rw [Option.eq_none_iff_forall_not_mem]
  rintro ⟨x, y⟩ hcut
  rw [cut?_eq_some hcut] at h
  simp at h

/-- The first occurrence in a text stays the first when something follows. -/
theorem cut?_append_right {p t x y : Text} (hp : p ≠ []) (h : cut? p t = some (x, y)) (u : Text) :
    cut? p (t ++ u) = some (x, y ++ u) := by
  induction t generalizing x with
  | nil => simp [cut?, hp] at h
  | cons c t ih =>
    rw [cut?] at h
    rw [List.cons_append, cut?]
    split at h
    · rename_i v hv
      cases h
      have hfound : dropPrefix? p (c :: (t ++ u)) = some (y ++ u) := by
        rw [dropPrefix?_eq_some_iff, ← List.cons_append, dropPrefix?_eq_some_iff.1 hv,
          List.append_assoc]
      rw [hfound]
    · rename_i hnone
      obtain ⟨⟨x', y'⟩, hr, heq⟩ := Option.map_eq_some_iff.1 h
      cases heq
      -- `p` fits into what follows `c`, so that it cannot begin at `c` and end in `u`
      have hnot : dropPrefix? p (c :: (t ++ u)) = none := by
        rw [dropPrefix?_eq_none_iff, ← Bool.not_eq_true, startsWith, List.isPrefixOf_iff_prefix]
        intro hlong
        have hlength : p.length ≤ (c :: t).length := by
          have htext := congrArg List.length (cut?_eq_some hr)
          simp only [List.length_append, List.length_cons] at htext ⊢
          omega
        have hshort : p <+: c :: t :=
          List.prefix_of_prefix_length_le hlong (List.prefix_append (c :: t) u) hlength
        rw [dropPrefix?_eq_none_iff, startsWith, ← Bool.not_eq_true,
          List.isPrefixOf_iff_prefix] at hnone
        exact hnone hshort
      rw [hnot, ih hr]
      rfl

theorem exists_cut? (p t u : Text) : ∃ parts, cut? p (t ++ (p ++ u)) = some parts := by
  induction t with
  | nil => exact ⟨_, cut?_append p u⟩
  | cons c t ih =>
    obtain ⟨parts, hparts⟩ := ih
    rw [List.cons_append, cut?, hparts]
    split <;> exact ⟨_, rfl⟩

/-- What follows the last occurrence does not depend on what stands before it. -/
theorem cutLast?_append_left {p : Text} (hp : p ≠ []) (r : Text) :
    ∃ last, ∀ x, ∃ first, cutLast? p (x ++ (p ++ r)) = some (first, last) := by
  obtain ⟨⟨a, b⟩, hcut⟩ := exists_cut? p.reverse r.reverse []
  rw [List.append_nil] at hcut
  refine ⟨a.reverse, fun x => ⟨(b ++ x.reverse).reverse, ?_⟩⟩
  have hne : p.reverse ≠ [] := by simpa using hp
  rw [cutLast?, List.reverse_append, List.reverse_append, cut?_append_right hne hcut]
  rfl

end Concord.Text
