/-
Trimming. A text whose ends are not blank is its own trim (`trim_eq_self_iff`).
-/
import Concord.Proofs.Text.Cut
import Concord.Text.Letter

namespace Concord.Text

/-! ## Dropping an end -/

theorem dropEndWhile_eq (p : Char → Bool) (t : Text) :
    dropEndWhile p t = (t.reverse.dropWhile p).reverse := by
  induction t with
  | nil => rfl
  | cons c t ih =>
    rw [dropEndWhile, ih, List.reverse_cons, List.dropWhile_append]
    cases h : t.reverse.dropWhile p with
    | nil => by_cases hc : p c = true <;> simp [hc]
    | cons d u =>
      cases hu : (d :: u).reverse with
      | nil => simp at hu
      | cons e v => simp [← hu]

theorem dropEndWhile_of_last {p : Char → Bool} {t : Text}
    (h : ∀ c, t.getLast? = some c → p c = false) : dropEndWhile p t = t := by
  rw [dropEndWhile_eq]
  cases hr : t.reverse with
  | nil => simpa using hr.symm
  | cons c u =>
    have hc : t.getLast? = some c := by rw [List.getLast?_eq_head?_reverse, hr]; rfl
    rw [List.dropWhile_cons_of_neg (by simp [h c hc]), ← hr, List.reverse_reverse]

theorem dropEndWhile_cons_of_neg {p : Char → Bool} {c : Char} (h : p c = false) (t : Text) :
    dropEndWhile p (c :: t) = c :: dropEndWhile p t := by
  rw [dropEndWhile]
  split
  · rename_i hnil
    simp [hnil, h]
  · rfl

theorem isPrefix_dropEndWhile (p : Char → Bool) (t : Text) : dropEndWhile p t <+: t := by
  have h := List.reverse_prefix.2 (List.dropWhile_suffix p (l := t.reverse))
  rwa [← dropEndWhile_eq, List.reverse_reverse] at h

theorem dropEndWhile_append {p : Char → Bool} (t : Text) {u : Text} (h : ∀ c ∈ u, p c = true) :
    dropEndWhile p (t ++ u) = dropEndWhile p t := by
  rw [dropEndWhile_eq, dropEndWhile_eq, List.reverse_append,
    List.dropWhile_append_of_pos (by simpa using h)]

theorem dropEndWhile_append_of_last {p : Char → Bool} {t : Text} (h : ∀ c, t.getLast? = some c → p c = false)
    (u : Text) : dropEndWhile p (t ++ u) = t ++ dropEndWhile p u := by
  have hlast := dropEndWhile_of_last h
  rw [dropEndWhile_eq, List.reverse_eq_iff] at hlast
  rw [dropEndWhile_eq, dropEndWhile_eq, List.reverse_append, List.dropWhile_append, hlast]
  cases hu : u.reverse.dropWhile p with
  | nil => simp
  | cons c v => simp

theorem last_dropEndWhile {p : Char → Bool} {t : Text} {c : Char}
    (h : (dropEndWhile p t).getLast? = some c) : p c = false := by
  rw [dropEndWhile_eq, List.getLast?_reverse] at h
  have := List.head?_dropWhile_not p t.reverse
  rw [h] at this
  simpa using this

theorem length_dropEndWhile_le (p : Char → Bool) (t : Text) :
    (dropEndWhile p t).length ≤ t.length := (isPrefix_dropEndWhile p t).length_le

/-! ## Trimming -/

theorem length_trimStart_le (t : Text) : (trimStart t).length ≤ t.length :=
  (List.dropWhile_sublist isBlank).length_le

theorem length_trim_le (t : Text) : (trim t).length ≤ t.length :=
  Nat.le_trans (length_dropEndWhile_le isBlank _) (length_trimStart_le t)

/-- What follows a character is shorter than the text, however much of it is taken. -/
theorem length_trim_take_lt {c : Char} {t x y : Text} (h : cut? [c] t = some (x, y)) (n : Nat) :
    (trim (y.take n)).length < t.length := by
  have htext := congrArg List.length (cut?_eq_some h)
  have htrim := length_trim_le (y.take n)
  simp only [List.length_append, List.length_singleton, List.length_take] at htext htrim
  omega

theorem trimStart_of_head {t : Text} (h : ∀ c, t.head? = some c → isBlank c = false) :
    trimStart t = t := by
  cases t with
  | nil => rfl
  | cons c t => exact List.dropWhile_cons_of_neg (by simp [h c rfl])

theorem trimStart_append_blank {u : Text} (hu : ∀ c ∈ u, isBlank c = true) (t : Text) :
    trimStart (u ++ t) = trimStart t := List.dropWhile_append_of_pos hu

theorem trimStart_blank {u : Text} (hu : ∀ c ∈ u, isBlank c = true) : trimStart u = [] := by
  have h := trimStart_append_blank hu []
  rwa [List.append_nil] at h

/-- Blanks go only as far as a text has nothing else. -/
theorem trimStart_append_of_ne {u : Text} (hu : trimStart u ≠ []) (t : Text) :
    trimStart (u ++ t) = trimStart u ++ t := by
  have hempty : (u.dropWhile isBlank).isEmpty = false := by simpa [trimStart] using hu
  rw [trimStart, List.dropWhile_append, hempty]
  rfl

theorem isBlank_of_trimStart_eq_nil {u : Text} (hu : trimStart u = []) : ∀ c ∈ u, isBlank c = true := by
  have hwhole : u.takeWhile isBlank ++ trimStart u = u := List.takeWhile_append_dropWhile
  have hall : (u.takeWhile isBlank).all isBlank = true := List.all_takeWhile
  rw [hu, List.append_nil] at hwhole
  rwa [hwhole, List.all_eq_true] at hall

theorem trimEnd_of_last {t : Text} (h : ∀ c, t.getLast? = some c → isBlank c = false) :
    trimEnd t = t := dropEndWhile_of_last h

/-- A text is its own trim exactly when neither end is blank. -/
theorem trim_eq_self_iff {t : Text} : trim t = t ↔
    (∀ c, t.head? = some c → isBlank c = false) ∧ ∀ c, t.getLast? = some c → isBlank c = false := by
  constructor
  · intro h
    have hlast : ∀ c, t.getLast? = some c → isBlank c = false := fun c hc =>
      last_dropEndWhile (by rw [← h] at hc; exact hc)
    refine ⟨fun c hc => ?_, hlast⟩
    obtain ⟨u, rfl⟩ := List.head?_eq_some_iff.1 hc
    rw [← Bool.not_eq_true]
    intro hblank
    -- a blank at the front is dropped, so that the trim is shorter than the text
    have hlen : (trim (c :: u)).length ≤ u.length := by
      rw [trim, trimEnd, trimStart, List.dropWhile_cons_of_pos hblank, dropEndWhile_eq,
        List.length_reverse]
      calc _ ≤ (List.dropWhile isBlank u).reverse.length := (List.dropWhile_sublist _).length_le
        _ ≤ u.length := by rw [List.length_reverse]; exact (List.dropWhile_sublist _).length_le
    rw [h, List.length_cons] at hlen
    omega
  · rintro ⟨hhead, hlast⟩
    rw [trim, trimStart_of_head hhead, trimEnd_of_last hlast]

theorem trimStart_of_trimmed {t : Text} (h : trim t = t) : trimStart t = t :=
  trimStart_of_head (trim_eq_self_iff.1 h).1

theorem trim_trim (t : Text) : trim (trim t) = trim t := by
  refine trim_eq_self_iff.2 ⟨fun c hc => ?_, fun c hc => last_dropEndWhile hc⟩
  obtain ⟨u, hu⟩ := List.head?_eq_some_iff.1 hc
  obtain ⟨v, hv⟩ := isPrefix_dropEndWhile isBlank (trimStart t)
  have hhead : (trimStart t).head? = some c := by
    rw [← hv, ← trimEnd, ← trim, hu]
    rfl
  have hnot := List.head?_dropWhile_not isBlank t
  rw [← trimStart, hhead] at hnot
  simpa using hnot

/-- A text is its trim with blanks around it. -/
theorem exists_trim (t : Text) : ∃ u v, t = u ++ (trim t ++ v) ∧ (∀ c ∈ u, isBlank c = true) ∧
    ∀ c ∈ v, isBlank c = true := by
  refine ⟨t.takeWhile isBlank, ((trimStart t).reverse.takeWhile isBlank).reverse, ?_, ?_, ?_⟩
  · have hend : trim t ++ ((trimStart t).reverse.takeWhile isBlank).reverse = trimStart t := by
      rw [trim, trimEnd, dropEndWhile_eq, ← List.reverse_append, List.takeWhile_append_dropWhile,
        List.reverse_reverse]
    rw [hend, trimStart, List.takeWhile_append_dropWhile]
  · exact List.all_eq_true.1 List.all_takeWhile
  · intro c hc
    exact List.all_eq_true.1 List.all_takeWhile c (List.mem_reverse.1 hc)

/-- Blanks around a trimmed text go. -/
theorem trim_pad {t u v : Text} (ht : trim t = t) (hu : ∀ c ∈ u, isBlank c = true)
    (hv : ∀ c ∈ v, isBlank c = true) : trim (u ++ (t ++ v)) = t := by
  obtain ⟨hhead, hlast⟩ := trim_eq_self_iff.1 ht
  rw [trim, trimStart_append_blank hu, trimStart]
  cases t with
  | nil =>
    rw [List.nil_append, trimEnd]
    have := dropEndWhile_append (p := isBlank) [] (u := v.dropWhile isBlank)
      fun c hc => hv c ((List.dropWhile_sublist _).mem hc)
    rw [List.nil_append] at this
    rw [this]
    rfl
  | cons c t =>
    rw [List.cons_append, List.dropWhile_cons_of_neg (by simp [hhead c rfl]), ← List.cons_append, trimEnd,
      dropEndWhile_append _ hv]
    exact trimEnd_of_last hlast

theorem trim_append_blank (t : Text) {v : Text} (hv : ∀ c ∈ v, isBlank c = true) : trim (t ++ v) = trim t := by
  by_cases hnil : trimStart t = []
  · rw [trim, trimStart_append_blank (isBlank_of_trimStart_eq_nil hnil), trimStart_blank hv, trim, hnil]
  · rw [trim, trimStart_append_of_ne hnil, trimEnd, dropEndWhile_append _ hv]
    rfl

/-- After a trimmed text only the end is trimmed. -/
theorem trim_append_of_trimmed {t : Text} (hne : t ≠ []) (ht : trim t = t) (u : Text) :
    trim (t ++ u) = t ++ trimEnd u := by
  have hstart := trimStart_of_trimmed ht
  rw [trim, trimStart_append_of_ne (by rwa [hstart]), hstart]
  exact dropEndWhile_append_of_last (trim_eq_self_iff.1 ht).2 u

theorem trimEnd_ne_nil {t : Text} {c : Char} (hc : c ∈ t) (hblank : isBlank c = false) : trimEnd t ≠ [] := by
  intro hnil
  rw [trimEnd, dropEndWhile_eq, List.reverse_eq_nil_iff] at hnil
  rw [isBlank_of_trimStart_eq_nil hnil c (List.mem_reverse.2 hc)] at hblank
  cases hblank

/-- Neither end of a text goes if it is not blank. -/
theorem head?_trim {t : Text} {c : Char} (hc : isBlank c = false) (h : t.head? = some c) :
    (trim t).head? = some c := by
  obtain ⟨u, rfl⟩ := List.head?_eq_some_iff.1 h
  have hstart : trimStart (c :: u) = c :: u := trimStart_of_head fun d hd => by
    rw [List.head?_cons, Option.some.injEq] at hd
    exact hd ▸ hc
  rw [trim, hstart, trimEnd, dropEndWhile_cons_of_neg hc, List.head?_cons]

theorem getLast?_trim {t : Text} {c : Char} (hc : isBlank c = false) (h : t.getLast? = some c) :
    (trim t).getLast? = some c := by
  have hne : trimStart t ≠ [] := fun hnil => by
    have hblank := isBlank_of_trimStart_eq_nil hnil c (List.mem_of_getLast? h)
    simp [hc] at hblank
  have hlast : (trimStart t).getLast? = some c := by
    obtain ⟨d, hd⟩ := Option.isSome_iff_exists.1 (List.getLast?_isSome.2 hne)
    obtain ⟨u, hu⟩ := List.dropWhile_suffix (l := t) isBlank
    have hwhole : (u ++ trimStart t).getLast? = some d := getLast?_append_some hd
    rw [trimStart, hu, h] at hwhole
    rw [hd, hwhole]
  rw [trim, trimEnd_of_last fun d hd => ?_, hlast]
  rw [hlast, Option.some.injEq] at hd
  exact hd ▸ hc

theorem trim_cons_space {t : Text} (ht : trim t = t) : trim (' ' :: t) = t := by
  have h := trim_pad (u := [' ']) (v := []) ht (by decide) (by simp)
  rwa [List.append_nil] at h

end Concord.Text
