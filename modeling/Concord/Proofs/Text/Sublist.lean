/-
Texts with characters left out. Trimming, dropping lines and taking off indentation keep
the other characters in their order, so each gives a sublist of the text (`trim_sublist`,
`join_lines_sublist`, `outdent_sublist`).
-/
import Concord.Proofs.Text.Lines

namespace Concord.Text

/-! ## Ends -/

theorem trimStart_sublist (t : Text) : (trimStart t).Sublist t := List.dropWhile_sublist isBlank

theorem dropEndWhile_sublist (p : Char → Bool) (t : Text) : (dropEndWhile p t).Sublist t :=
  (isPrefix_dropEndWhile p t).sublist

theorem trim_sublist (t : Text) : (trim t).Sublist t :=
  (dropEndWhile_sublist isBlank _).trans (trimStart_sublist t)

theorem stripBoth_sublist (p : Char → Bool) (t : Text) : (stripBoth p t).Sublist t :=
  (dropEndWhile_sublist p _).trans (List.dropWhile_sublist p)

/-! ## Lines -/

theorem dropReturn_sublist (l : Text) : (dropReturn l).Sublist l := by
  unfold dropReturn
  cases h : dropSuffix? ['\r'] l with
  | none => exact .refl _
  | some u =>
    rw [dropSuffix?_eq_some h]
    exact List.sublist_append_left u _

theorem outdentLine_sublist (n : Nat) (l : Text) : (outdentLine n l).Sublist l := by
  fun_induction outdentLine n l with
  | case1 l => exact .refl _
  | case2 => exact .refl _
  | case3 n c l _ ih => exact ih.cons c
  | case4 => exact .refl _

/-- Fewer lines make a sublist of the text. -/
theorem join_sublist (sep : Text) {ls ms : List Text} (h : ls.Sublist ms) :
    (join sep ls).Sublist (join sep ms) := by
  induction h with
  | slnil => exact .refl _
  | @cons ls ms m h ih =>
    by_cases hnil : ms = []
    · subst hnil
      rw [List.sublist_nil.1 h]
      exact List.nil_sublist _
    · rw [join_cons sep m hnil]
      exact ih.trans ((List.sublist_append_right _ _).trans (List.sublist_append_right _ _))
  | @cons_cons ls ms l h ih =>
    by_cases hnil : ls = []
    · obtain ⟨u, hu⟩ := exists_join_cons sep l ms
      rw [hnil, join_singleton, hu]
      exact List.sublist_append_left l u
    · have hmore : ms ≠ [] := fun hms => hnil (List.sublist_nil.1 (hms ▸ h))
      rw [join_cons sep l hnil, join_cons sep l hmore]
      exact (List.Sublist.refl l).append ((List.Sublist.refl sep).append ih)

/-- So do shorter lines. -/
theorem join_map_append_sublist (sep : Text) {f : Text → Text} (hf : ∀ l, (f l).Sublist l) (ls ms : List Text) :
    (join sep (ls.map f ++ ms)).Sublist (join sep (ls ++ ms)) := by
  induction ls with
  | nil => exact .refl _
  | cons l ls ih =>
    rw [List.map_cons, List.cons_append, List.cons_append]
    by_cases hnil : ls ++ ms = []
    · obtain ⟨rfl, rfl⟩ := List.append_eq_nil_iff.1 hnil
      simpa using hf l
    · have hnil' : ls.map f ++ ms ≠ [] := by simpa using hnil
      rw [join_cons sep _ hnil', join_cons sep _ hnil]
      exact (hf l).append ((List.Sublist.refl sep).append ih)

theorem join_map_sublist (sep : Text) {f : Text → Text} (hf : ∀ l, (f l).Sublist l) (ls : List Text) :
    (join sep (ls.map f)).Sublist (join sep ls) := by
  simpa using join_map_append_sublist sep hf ls []

theorem join_lines_sublist (t : Text) : (join ['\n'] (lines t)).Sublist t := by
  have hwhole := join_splitAt '\n' t
  unfold lines
  cases hparts : (splitAt '\n' t).reverse with
  | nil => exact List.nil_sublist t
  | cons last before =>
    rw [List.reverse_eq_cons_iff.1 hparts] at hwhole
    have hlines := join_map_append_sublist ['\n'] dropReturn_sublist before.reverse [last]
    rw [hwhole] at hlines
    simp only
    split
    · exact (join_sublist _ (List.sublist_append_left _ _)).trans hlines
    · exact hlines

theorem outdent_sublist (t : Text) : (outdent t).Sublist t :=
  (stripBoth_sublist _ _).trans
    ((join_map_sublist _ (outdentLine_sublist _) _).trans (join_lines_sublist t))

end Concord.Text
