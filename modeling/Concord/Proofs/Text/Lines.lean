/-
Lines. Splitting at a character and joining undo each other, so the lines that a text
was made of are the lines it has (`lines_join`), and taking off a common indentation gives
back the lines that were set in (`outdent_padded`).
-/
import Concord.Proofs.Text.Trim
import Concord.Text.Lines

namespace Concord.Text

/-! ## Splitting and joining -/

@[simp] theorem join_singleton (sep l : Text) : join sep [l] = l := by simp [join, List.intercalate]

theorem join_cons (sep l : Text) {ls : List Text} (h : ls ≠ []) :
    join sep (l :: ls) = l ++ (sep ++ join sep ls) := by
  obtain ⟨m, ms, rfl⟩ := List.exists_cons_of_ne_nil h
  simp [join, List.intercalate]

/-- What the first part begins with, the whole begins with. -/
theorem join_append_cons (sep a l : Text) (ls : List Text) :
    join sep ((a ++ l) :: ls) = a ++ join sep (l :: ls) := by
  by_cases hnil : ls = []
  · rw [hnil, join_singleton, join_singleton]
  · rw [join_cons sep _ hnil, join_cons sep _ hnil, List.append_assoc]

theorem exists_join_cons (sep l : Text) (ls : List Text) : ∃ u, join sep (l :: ls) = l ++ u :=
  ⟨join sep ([] :: ls), by rw [← join_append_cons, List.append_nil]⟩

theorem join_ne_nil (sep : Text) {l : Text} (hl : l ≠ []) (ls : List Text) : join sep (l :: ls) ≠ [] := by
  obtain ⟨u, hu⟩ := exists_join_cons sep l ls
  rw [hu]
  simp [hl]

theorem join_append (sep : Text) {ls ms : List Text} (hls : ls ≠ []) (hms : ms ≠ []) :
    join sep (ls ++ ms) = join sep ls ++ (sep ++ join sep ms) := by
  induction ls with
  | nil => exact absurd rfl hls
  | cons l ls ih =>
    by_cases hnil : ls = []
    · rw [hnil, List.singleton_append, join_cons sep l hms, join_singleton]
    · rw [List.cons_append, join_cons sep l (by simp [hms]), ih hnil, join_cons sep l hnil]
      simp

theorem head?_join (sep : Text) {l : Text} (hl : l ≠ []) (ls : List Text) :
    (join sep (l :: ls)).head? = l.head? := by
  by_cases hnil : ls = []
  · rw [hnil, join_singleton]
  · obtain ⟨c, u, rfl⟩ := List.exists_cons_of_ne_nil hl
    rw [join_cons sep _ hnil]
    rfl

theorem getLast?_join (sep : Text) {l : Text} (hl : l ≠ []) (ls : List Text) :
    (join sep (ls ++ [l])).getLast? = l.getLast? := by
  by_cases hnil : ls = []
  · rw [hnil, List.nil_append, join_singleton]
  · rw [join_append sep hnil (by simp), join_singleton, ← List.append_assoc, List.getLast?_append,
      List.getLast?_eq_some_getLast hl]
    rfl

theorem splitAt_ne_nil (sep : Char) (t : Text) : splitAt sep t ≠ [] := by
  cases t with
  | nil => simp [splitAt]
  | cons c t =>
    rw [splitAt]
    split
    · simp
    · split <;> simp

theorem splitAt_of_not_mem {sep : Char} {t : Text} (h : sep ∉ t) : splitAt sep t = [t] := by
  induction t with
  | nil => rfl
  | cons c t ih =>
    simp only [List.mem_cons, not_or] at h
    rw [splitAt, if_neg (Ne.symm h.1), ih h.2]

/-- What stands on the two sides of a separator is split apart. -/
theorem splitAt_append (sep : Char) (a b : Text) :
    splitAt sep (a ++ sep :: b) = splitAt sep a ++ splitAt sep b := by
  induction a with
  | nil => simp [splitAt]
  | cons c a ih =>
    rw [List.cons_append, splitAt, splitAt, ih]
    split
    · simp
    · obtain ⟨u, us, hu⟩ := List.exists_cons_of_ne_nil (splitAt_ne_nil sep a)
      simp [hu]

theorem splitAt_join {sep : Char} {ls : List Text} (hne : ls ≠ []) (h : ∀ l ∈ ls, sep ∉ l) :
    splitAt sep (join [sep] ls) = ls := by
  induction ls with
  | nil => exact absurd rfl hne
  | cons l ls ih =>
    by_cases hnil : ls = []
    · rw [hnil, join_singleton, splitAt_of_not_mem (h l (by simp))]
    · rw [join_cons [sep] l hnil, List.singleton_append, splitAt_append,
        splitAt_of_not_mem (h l (by simp)), ih hnil fun m hm => h m (by simp [hm])]
      rfl

theorem join_splitAt (sep : Char) (t : Text) : join [sep] (splitAt sep t) = t := by
  induction t with
  | nil => rfl
  | cons c t ih =>
    rw [splitAt]
    split
    · rename_i hc
      rw [join_cons [sep] [] (splitAt_ne_nil sep t), ih, hc]
      rfl
    · obtain ⟨u, us, hu⟩ := List.exists_cons_of_ne_nil (splitAt_ne_nil sep t)
      rw [hu] at ih ⊢
      by_cases hnil : us = []
      · rw [hnil] at ih ⊢
        simp only [join_singleton] at ih ⊢
        rw [ih]
      · rw [join_cons [sep] u hnil] at ih
        simp only
        rw [join_cons [sep] (c :: u) hnil, List.cons_append, ih]

/-- Without a separator between them, the last part of one text and the first of the next are one part. -/
theorem splitAt_glue (sep : Char) (a b : Text) : ∃ before x y after, splitAt sep a = before ++ [x] ∧
    splitAt sep b = y :: after ∧ splitAt sep (a ++ b) = before ++ (x ++ y) :: after ∧ x <:+ a ∧ y <+: b := by
  obtain ⟨y, after, hb⟩ := List.exists_cons_of_ne_nil (splitAt_ne_nil sep b)
  have hy : y <+: b := by
    obtain ⟨u, hu⟩ := exists_join_cons [sep] y after
    rw [← hb, join_splitAt] at hu
    exact ⟨u, hu.symm⟩
  induction a with
  | nil => exact ⟨[], [], y, after, rfl, hb, hb, List.nil_suffix, hy⟩
  | cons c a ih =>
    obtain ⟨before, x, y', after', ha, hb', hab, hx, hy'⟩ := ih
    by_cases hc : c = sep
    · refine ⟨[] :: before, x, y', after', ?_, hb', ?_, hx.trans (List.suffix_cons c a), hy'⟩
      · rw [splitAt, if_pos hc, ha, List.cons_append]
      · rw [List.cons_append, splitAt, if_pos hc, hab, List.cons_append]
    · cases before with
      | nil =>
        refine ⟨[], c :: x, y', after', ?_, hb', ?_, ?_, hy'⟩
        · rw [splitAt, if_neg hc, ha]
          rfl
        · rw [List.cons_append, splitAt, if_neg hc, hab]
          rfl
        · obtain rfl : x = a := by
            have hjoin := join_splitAt sep a
            rwa [ha, List.nil_append, join_singleton] at hjoin
          exact List.suffix_rfl
      | cons l before =>
        refine ⟨(c :: l) :: before, x, y', after', ?_, hb', ?_, hx.trans (List.suffix_cons c a), hy'⟩
        · rw [splitAt, if_neg hc, ha]
          rfl
        · rw [List.cons_append, splitAt, if_neg hc, hab]
          rfl

/-! ## Lines -/

/-- A line that ends with something to see. -/
structure IsLine (l : Text) : Prop where
  noFeed : '\n' ∉ l
  last : ∃ c, l.getLast? = some c ∧ isBlank c = false

theorem IsLine.ne_nil {l : Text} (h : IsLine l) : l ≠ [] := by
  rintro rfl
  obtain ⟨c, hc, -⟩ := h.last
  cases hc

theorem IsLine.append {l : Text} (h : IsLine l) {pad : Text} (hpad : '\n' ∉ pad) : IsLine (pad ++ l) where
  noFeed := by simp [hpad, h.noFeed]
  last := by
    obtain ⟨c, hc, hblank⟩ := h.last
    exact ⟨c, by rw [List.getLast?_append, hc]; rfl, hblank⟩

theorem IsLine.trim_ne_nil {l : Text} (h : IsLine l) : trim l ≠ [] := by
  obtain ⟨c, hc, hblank⟩ := h.last
  obtain ⟨u, rfl⟩ := List.getLast?_eq_some_iff.1 hc
  obtain ⟨v, hv⟩ : ∃ v, trimStart (u ++ [c]) = v ++ [c] := by
    rw [trimStart, List.dropWhile_append]
    split
    · exact ⟨[], by simp [hblank]⟩
    · exact ⟨u.dropWhile isBlank, rfl⟩
  have hend : trimEnd (v ++ [c]) = v ++ [c] := trimEnd_of_last (by simp [hblank])
  rw [trim, hv, hend]
  simp

theorem dropReturn_of_last {l : Text} (h : l.getLast? ≠ some '\r') : dropReturn l = l := by
  have hsuffix : ['\r'].isSuffixOf l = false := by
    rw [← Bool.not_eq_true, List.isSuffixOf_iff_suffix]
    rintro ⟨u, rfl⟩
    simp at h
  simp [dropReturn, dropSuffix?, hsuffix]

theorem IsLine.dropReturn {l : Text} (h : IsLine l) : dropReturn l = l := by
  refine dropReturn_of_last ?_
  obtain ⟨c, hc, hblank⟩ := h.last
  rw [hc, ne_eq, Option.some.injEq]
  rintro rfl
  exact absurd hblank (by decide)

/-- **The lines of joined lines** are those lines. -/
theorem lines_join {ls : List Text} (hne : ls ≠ []) (h : ∀ l ∈ ls, IsLine l) :
    lines (join ['\n'] ls) = ls := by
  obtain ⟨before, last, rfl⟩ : ∃ before last, ls = before ++ [last] :=
    ⟨ls.dropLast, ls.getLast hne, (List.dropLast_concat_getLast hne).symm⟩
  have hlast : last.isEmpty = false := by simpa using (h last (by simp)).ne_nil
  have hmap : before.map dropReturn = before := by
    rw [List.map_congr_left fun l hl => (h l (by simp [hl])).dropReturn, List.map_id']
  rw [lines, splitAt_join hne fun l hl => (h l hl).noFeed]
  simp [hlast, hmap]

theorem length_le_join {ls : List Text} (h : ∀ l ∈ ls, IsLine l) : ls.length ≤ (join ['\n'] ls).length := by
  induction ls with
  | nil => simp
  | cons l ls ih =>
    have hl := List.length_pos_iff.2 (h l (by simp)).ne_nil
    have hls := ih fun m hm => h m (by simp [hm])
    by_cases hnil : ls = []
    · simp only [hnil, join_singleton, List.length_cons, List.length_nil]
      omega
    · rw [join_cons ['\n'] l hnil]
      simp only [List.length_cons, List.length_append, List.length_nil]
      omega

/-! ## Indentation -/

/-- A line with `n` spaces before it. -/
def indent (n : Nat) (l : Text) : Text := List.replicate n ' ' ++ l

theorem indentOf_padded {pad : Text} (hpad : ∀ c ∈ pad, isBlank c = true) (l : Text) :
    indentOf (pad ++ l) = pad.length + indentOf l := by
  rw [indentOf, List.takeWhile_append_of_pos hpad, List.length_append]
  rfl

theorem outdentLine_padded {pad : Text} (hpad : ∀ c ∈ pad, isBlank c = true) (l : Text) :
    outdentLine pad.length (pad ++ l) = l := by
  induction pad with
  | nil => cases l <;> rfl
  | cons c pad ih =>
    rw [List.cons_append, List.length_cons, outdentLine, if_pos (hpad c (by simp))]
    exact ih fun d hd => hpad d (by simp [hd])

theorem IsLine.not_allBlank {l : Text} (h : IsLine l) : allBlank l = false := by
  obtain ⟨c, hc, hblank⟩ := h.last
  rw [← Bool.not_eq_true, allBlank, List.all_eq_true]
  intro hall
  rw [hall c (List.mem_of_getLast? hc)] at hblank
  cases hblank

theorem stripBoth_join {ls : List Text} (hne : ls ≠ []) (h : ∀ l ∈ ls, IsLine l) :
    stripBoth (· == '\n') (join ['\n'] ls) = join ['\n'] ls := by
  have hstart : (join ['\n'] ls).dropWhile (· == '\n') = join ['\n'] ls := by
    obtain ⟨l, ms, rfl⟩ := List.exists_cons_of_ne_nil hne
    have hl := h l (by simp)
    obtain ⟨c, u, rfl⟩ := List.exists_cons_of_ne_nil hl.ne_nil
    have hc : c ≠ '\n' := fun he => hl.noFeed (by simp [he])
    have hhead := head?_join ['\n'] hl.ne_nil ms
    cases hjoin : join ['\n'] ((c :: u) :: ms) with
    | nil => rfl
    | cons d v =>
      rw [hjoin, List.head?_cons, List.head?_cons, Option.some.injEq] at hhead
      exact List.dropWhile_cons_of_neg (by simpa [hhead] using hc)
  rw [stripBoth, hstart]
  refine dropEndWhile_of_last fun c hc => ?_
  obtain ⟨before, last, rfl⟩ : ∃ before last, ls = before ++ [last] :=
    ⟨ls.dropLast, ls.getLast hne, (List.dropLast_concat_getLast hne).symm⟩
  have hlast := h last (by simp)
  rw [getLast?_join ['\n'] hlast.ne_nil] at hc
  rw [beq_eq_false_iff_ne]
  rintro rfl
  exact hlast.noFeed (List.mem_of_getLast? hc)

/-- Lines that were set in alike are given back, if one of them had no indentation before. -/
theorem outdent_padded {ls : List Text} (h : ∀ l ∈ ls, IsLine l) (hflush : ∃ l ∈ ls, indentOf l = 0)
    {pad : Text} (hpad : ∀ c ∈ pad, isBlank c = true) (hfeed : '\n' ∉ pad) :
    outdent (join ['\n'] (ls.map (pad ++ ·))) = join ['\n'] ls := by
  obtain ⟨flush, hmem, hzero⟩ := hflush
  have hne : ls ≠ [] := List.ne_nil_of_mem hmem
  have hpadded : ∀ l ∈ ls.map (pad ++ ·), IsLine l := by
    intro l hl
    obtain ⟨m, hm, rfl⟩ := List.mem_map.1 hl
    exact (h m hm).append hfeed
  have hlines : lines (join ['\n'] (ls.map (pad ++ ·))) = ls.map (pad ++ ·) :=
    lines_join (by simp [hne]) hpadded
  have hfilter : (ls.map (pad ++ ·)).filter (fun l => !allBlank l) = ls.map (pad ++ ·) := by
    rw [List.filter_eq_self]
    intro l hl
    rw [(hpadded l hl).not_allBlank]
    rfl
  have hmin : ((ls.map (pad ++ ·)).map indentOf).min? = some pad.length := by
    rw [List.min?_eq_some_iff]
    refine ⟨?_, fun k hk => ?_⟩
    · rw [List.map_map, List.mem_map]
      exact ⟨flush, hmem, by rw [Function.comp, indentOf_padded hpad, hzero]; rfl⟩
    · rw [List.map_map, List.mem_map] at hk
      obtain ⟨l, -, rfl⟩ := hk
      rw [Function.comp, indentOf_padded hpad]
      omega
  have hmap : (ls.map (pad ++ ·)).map (outdentLine pad.length) = ls := by
    rw [List.map_map]
    exact (List.map_congr_left fun l _ => outdentLine_padded hpad l).trans (List.map_id _)
  simp only [outdent, hlines, hfilter, hmin, Option.getD_some, hmap]
  exact stripBoth_join hne h

theorem outdent_indented {ls : List Text} (h : ∀ l ∈ ls, IsLine l) (hflush : ∃ l ∈ ls, indentOf l = 0)
    (n : Nat) : outdent (join ['\n'] (ls.map (indent n))) = join ['\n'] ls := by
  have hspace : ∀ c ∈ List.replicate n ' ', c = ' ' := fun c hc => List.eq_of_mem_replicate hc
  exact outdent_padded h hflush (fun c hc => by rw [hspace c hc]; decide)
    fun hc => absurd (hspace _ hc) (by decide)

end Concord.Text
