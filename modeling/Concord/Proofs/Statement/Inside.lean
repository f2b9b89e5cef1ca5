/-
The statements inside a statement, for every text whatsoever. Each is made of characters of
the statement in their order, but not of all of them (`inside_of_mem_children`), for a
keyword is left out at least.
-/
import Concord.Proofs.Statement.Nested
import Concord.Proofs.Text.Sublist

namespace Concord

open Text

/-! ## Parts of a split text -/

namespace Code

theorem sublist_of_mem_piecesAt {sep : Char} {cells : List Cell} {piece : Text} (h : piece ∈ piecesAt sep cells) :
    piece.Sublist (cells.map Cell.char) := by
  induction cells generalizing piece with
  | nil =>
    obtain rfl : piece = [] := by simpa [piecesAt] using h
    exact .refl _
  | cons cell cells ih =>
    obtain ⟨first, more, hpieces⟩ := exists_piecesAt sep cells
    rw [piecesAt, hpieces] at h
    rw [hpieces] at ih
    split at h
    · rcases List.mem_cons.1 h with rfl | h
      · exact List.nil_sublist _
      · exact (ih h).cons _
    · rcases List.mem_cons.1 h with rfl | h
      · exact (ih List.mem_cons_self).cons_cons _
      · exact (ih (List.mem_cons_of_mem _ h)).cons _

theorem sublist_of_mem_splitTop {sep : Char} {t part : Text} (h : part ∈ splitTop sep t) : part.Sublist t := by
  obtain ⟨piece, hpiece, rfl⟩ := List.mem_map.1 (List.mem_filter.1 h).1
  have hchars : (scan t).map Cell.char = t := map_char_scanFrom _ t
  exact (trim_sublist piece).trans (hchars ▸ sublist_of_mem_piecesAt hpiece)

end Code

namespace Statement

open Code
open Indented (IsFlat)

/-- A text inside another one: made of its characters in their order, but not of all of them. -/
structure Inside (s t : Text) : Prop where
  sublist : s.Sublist t
  shorter : s.length < t.length

theorem Inside.trans_sublist {s t u : Text} (h : Inside s t) (htu : t.Sublist u) : Inside s u :=
  ⟨h.sublist.trans htu, Nat.lt_of_lt_of_le h.shorter htu.length_le⟩

/-- What follows the first characters of a text is inside it. -/
theorem inside_of_drop {s t : Text} (ht : t ≠ []) {n : Nat} (hn : 0 < n) (h : s.Sublist (t.drop n)) : Inside s t where
  sublist := h.trans (List.drop_sublist n t)
  shorter := by
    have hle := h.length_le
    have hpos : 0 < t.length := List.length_pos_iff.2 ht
    rw [List.length_drop] at hle
    omega

theorem Indented.IsFlat.children_eq {s : Shape} (h : IsFlat s) : s.children = [] := by
  cases s with
  | conditional c yes otherwise => exact absurd rfl (h.not_conditional c yes otherwise)
  | loop range body => exact absurd rfl (h.not_loop range body)
  | _ => rfl

/-! ## Suites that are indented -/

namespace Indented

/-- A statement is gathered from lines of its block. -/
theorem sublist_of_mem_gather {current ls s : List Text} (h : s ∈ gather current ls) : s.Sublist (current ++ ls) := by
  fun_induction gather current ls with
  | case1 current hnil => cases h
  | case2 current hnil =>
    obtain rfl := List.mem_singleton.1 h
    exact List.sublist_append_left _ _
  | case3 current line rest word continues skipped hcontinues hskip ih =>
    exact (ih h).trans ((List.sublist_cons_self line rest).trans (List.sublist_append_right _ _))
  | case4 current line rest word continues skipped hcontinues hskip ih =>
    simpa using ih h
  | case5 current line rest word continues skipped hcontinues ih ih' =>
    rcases List.mem_cons.1 h with rfl | h
    · exact List.sublist_append_left _ _
    · refine List.Sublist.trans ?_ (List.sublist_append_right current _)
      split at h
      · exact (ih h).cons line
      · exact ih' h

theorem sublist_of_mem_splitBlock {block s : Text} (h : s ∈ splitBlock block) : s.Sublist block := by
  obtain ⟨ls, hls, rfl⟩ := List.mem_map.1 (List.mem_filter.1 h).1
  have hlines : (join ['\n'] ls).Sublist (join ['\n'] (lines (outdent block))) :=
    join_sublist _ (sublist_of_mem_gather hls)
  exact (dropEndWhile_sublist isBlank _).trans
    (hlines.trans ((join_lines_sublist _).trans (outdent_sublist block)))

/-- The first line of a text and the lines below it. -/
theorem firstLine_sublist (t : Text) :
    ((cut? ['\n'] t).getD (t, [])).1.Sublist t ∧ ((cut? ['\n'] t).getD (t, [])).2.Sublist t := by
  cases h : cut? ['\n'] t with
  | none => exact ⟨.refl _, List.nil_sublist _⟩
  | some parts =>
    obtain ⟨first, below⟩ := parts
    rw [cut?_eq_some h]
    exact ⟨List.sublist_append_left _ _, (List.sublist_append_right _ _).trans (List.sublist_append_right _ _)⟩

/-- The suite of a clause and what follows it stand after the colon. -/
theorem sublist_of_clause? {t : Text} {skip : Nat} {clause : Clause} (h : clause? t skip = some clause) :
    ∃ colon, (∀ s ∈ clause.body, s.Sublist (t.drop (colon + 1))) ∧ clause.rest.Sublist (t.drop (colon + 1)) := by
  simp only [clause?, Option.bind_eq_bind, Option.bind_eq_some_iff] at h
  obtain ⟨colon, -, h⟩ := h
  obtain ⟨hfirst, hbelow⟩ := firstLine_sublist (t.drop (colon + 1))
  generalize (cut? ['\n'] (t.drop (colon + 1))).getD (t.drop (colon + 1), []) = parts at h hfirst hbelow
  have hlines := (join_lines_sublist parts.2).trans hbelow
  refine ⟨colon, ?_⟩
  split at h
  · obtain rfl := Option.some.inj h
    exact ⟨fun s hs => (sublist_of_mem_splitTop hs).trans ((trim_sublist _).trans hfirst), hbelow⟩
  · obtain rfl := Option.some.inj h
    dsimp only
    refine ⟨fun s hs => (sublist_of_mem_splitBlock hs).trans ((join_sublist _ ?_).trans hlines),
      (join_sublist _ ?_).trans hlines⟩
    · exact List.takeWhile_sublist _
    · exact List.dropWhile_sublist _

theorem inside_of_mem_body {t s : Text} (ht : t ≠ []) {skip : Nat} {clause : Clause}
    (h : clause? t skip = some clause) (hs : s ∈ clause.body) : Inside s t := by
  obtain ⟨colon, hbody, -⟩ := sublist_of_clause? h
  exact inside_of_drop ht (Nat.succ_pos colon) (hbody s hs)

theorem inside_of_rest {t s : Text} (ht : t ≠ []) {skip : Nat} {clause : Clause}
    (h : clause? t skip = some clause) (hs : s.Sublist clause.rest) : Inside s t := by
  obtain ⟨colon, -, hrest⟩ := sublist_of_clause? h
  exact inside_of_drop ht (Nat.succ_pos colon) (hs.trans hrest)

theorem inside_of_mem_looping {t s : Text} (ht : t ≠ []) {skip : Nat} (h : s ∈ (looping t skip).children) :
    Inside s t := by
  unfold looping at h
  cases hclause : clause? t skip with
  | none => simp [hclause, Shape.children] at h
  | some clause =>
    rw [hclause] at h
    exact inside_of_mem_body ht hclause h

/-- What another branch is read from has all characters of its statements: the word of a further condition
loses its first two. -/
theorem sublist_of_mem_otherwiseOf {rest s : Text} (h : s ∈ (otherwiseOf rest).getD []) : s.Sublist rest := by
  unfold otherwiseOf at h
  cases helif : dropPrefix? "elif".toList rest with
  | some tail =>
    rw [helif] at h
    obtain rfl := List.mem_singleton.1 h
    have hword : "if".toList.Sublist "elif".toList := by decide
    rw [dropPrefix?_eq_some_iff.1 helif]
    exact hword.append (.refl tail)
  | none =>
    rw [helif, Option.map_none, Option.none_or] at h
    split at h
    · cases hclause : clause? rest 4 with
      | none => simp [hclause] at h
      | some clause =>
        obtain ⟨colon, hbody, -⟩ := sublist_of_clause? hclause
        rw [hclause] at h
        exact (hbody s h).trans (List.drop_sublist _ _)
    · cases h

theorem inside_of_mem_conditional {t s : Text} (ht : t ≠ []) (h : s ∈ (conditional t).children) : Inside s t := by
  cases hclause : clause? t 2 with
  | none => simp [conditional, hclause, Shape.children] at h
  | some clause =>
    rw [conditional_eq hclause] at h
    rcases List.mem_append.1 h with hyes | hno
    · exact inside_of_mem_body ht hclause hyes
    · exact inside_of_rest ht hclause ((sublist_of_mem_otherwiseOf hno).trans (List.dropWhile_sublist _))

theorem ne_nil_of_beginsWithWord {t word : Text} (hword : word ≠ []) (h : beginsWithWord t word = true) : t ≠ [] := by
  rintro rfl
  cases word with
  | nil => exact hword rfl
  | cons c word => cases h

theorem inside_of_mem_decompose {fragment s : Text} (h : s ∈ (decompose fragment).children) : Inside s fragment := by
  refine Inside.trans_sublist ?_ (trim_sublist fragment)
  by_cases hif : beginsWithWord (trim fragment) "if".toList = true
  · simp only [decompose, hif, if_true] at h
    exact inside_of_mem_conditional (ne_nil_of_beginsWithWord (by decide) hif) h
  by_cases hfor : beginsWithWord (trim fragment) "for".toList = true
  · simp only [decompose, hif, hfor, if_true] at h
    exact inside_of_mem_looping (ne_nil_of_beginsWithWord (by decide) hfor) h
  by_cases hwhile : beginsWithWord (trim fragment) "while".toList = true
  · simp only [decompose, hif, hfor, hwhile, if_true] at h
    exact inside_of_mem_looping (ne_nil_of_beginsWithWord (by decide) hwhile) h
  cases hasync : dropPrefix? "async for ".toList (trim fragment) with
  | some rest =>
    have hshorter : ("for ".toList ++ rest).Sublist (trim fragment) := by
      rw [dropPrefix?_eq_some_iff.1 hasync]
      exact List.Sublist.append (by decide : "for ".toList.Sublist "async for ".toList) (.refl rest)
    simp only [decompose, hif, hfor, hwhile, hasync] at h
    exact (inside_of_mem_looping (by simp) h).trans_sublist hshorter
  | none =>
    have hflat : IsFlat (decompose (trim fragment)) := by
      refine decompose_flat (trim_trim fragment) (fun w => ?_) hasync
      rcases w with _ | _ | _
      · exact Bool.eq_false_iff.2 hif
      · exact Bool.eq_false_iff.2 hwhile
      · exact Bool.eq_false_iff.2 hfor
    have hsame : decompose fragment = decompose (trim fragment) := by simp only [decompose, trim_trim]
    rw [hsame, hflat.children_eq] at h
    cases h

end Indented

/-! ## Suites in braces -/

namespace Braced

/-- A statement is gathered from characters of its block. -/
theorem sublist_of_mem_gather {current t s : Text} {cells : List Cell} (h : s ∈ gather current t cells) :
    s.Sublist (current.reverse ++ t) := by
  fun_induction gather current t cells with
  | case1 current c t cell cells hsemi ih =>
    rcases List.mem_cons.1 h with rfl | h
    · exact (trim_sublist _).trans (List.sublist_append_left _ _)
    · exact ((ih h).cons c).trans (List.sublist_append_right _ _)
  | case2 current c t cell cells hsemi hbrace ih =>
    rcases List.mem_cons.1 h with rfl | h
    · refine (trim_sublist _).trans ?_
      simp
    · exact ((ih h).cons c).trans (List.sublist_append_right _ _)
  | case3 current c t cell cells hsemi hbrace ih => simpa using ih h
  | case4 current t cells hend =>
    obtain rfl := List.mem_singleton.1 h
    exact (trim_sublist _).trans (List.sublist_append_left _ _)

theorem sublist_of_mem_splitBlock {block s : Text} (h : s ∈ splitBlock block) : s.Sublist block := by
  have hcode : (withoutCommentLines block).Sublist block :=
    (join_sublist _ List.filter_sublist).trans (join_lines_sublist block)
  exact (sublist_of_mem_gather (List.mem_filter.1 h).1).trans hcode

/-- What stands between two places of a text. -/
theorem take_drop_sublist (n m : Nat) (t : Text) : ((t.take n).drop m).Sublist t :=
  (List.drop_sublist m _).trans (List.take_sublist n t)

theorem sublist_of_header? {style : Header} {t header after : Text} (h : header? style t = some (header, after)) :
    after.Sublist t := by
  unfold header? at h
  split at h
  · obtain ⟨close, -, hparts⟩ := Option.map_eq_some_iff.1 h
    obtain ⟨-, rfl⟩ := Prod.mk.inj hparts
    exact (trimStart_sublist _).trans (List.drop_sublist _ _)
  · obtain ⟨brace, -, hparts⟩ := Option.map_eq_some_iff.1 h
    obtain ⟨-, rfl⟩ := Prod.mk.inj hparts
    exact List.drop_sublist _ _

/-- The suite of a clause and what follows it stand in the text after the keyword. -/
theorem sublist_of_clause? {style : Header} {t : Text} {clause : Clause} (h : clause? style t = some clause) :
    (∀ s ∈ clause.body, s.Sublist t) ∧ clause.rest.Sublist t := by
  simp only [clause?, Option.bind_eq_bind, Option.bind_eq_some_iff] at h
  obtain ⟨⟨header, after⟩, hheader, h⟩ := h
  have hafter : after.Sublist t := (sublist_of_header? hheader).trans (trimStart_sublist t)
  have hdrop : ∀ n, (trimStart (after.drop n)).Sublist t := fun n =>
    (trimStart_sublist _).trans ((List.drop_sublist n after).trans hafter)
  split at h
  · obtain ⟨close, -, h⟩ := Option.bind_eq_some_iff.1 h
    obtain rfl := Option.some.inj h
    exact ⟨fun s hs => (sublist_of_mem_splitBlock hs).trans ((take_drop_sublist _ _ _).trans hafter), hdrop _⟩
  · cases hsemi : findTop? [';'] after with
    | some semi =>
      rw [hsemi] at h
      obtain rfl := Option.some.inj h
      refine ⟨fun s hs => ?_, hdrop _⟩
      obtain rfl := List.mem_singleton.1 hs
      exact (trim_sublist _).trans ((List.take_sublist _ _).trans hafter)
    | none =>
      rw [hsemi] at h
      obtain rfl := Option.some.inj h
      refine ⟨fun s hs => ?_, List.nil_sublist _⟩
      obtain rfl := List.mem_singleton.1 hs
      exact (trim_sublist _).trans hafter

/-- A branch that does not end, or that is a conditional again, is kept whole. -/
theorem sublist_of_mem_otherBranch {branch s : Text} (h : s ∈ otherBranch branch) : s.Sublist branch := by
  unfold otherBranch at h
  split at h
  · obtain rfl := List.mem_singleton.1 h
    exact .refl _
  · split at h
    · cases hclose : closeOf? branch 0 with
      | some close =>
        rw [hclose] at h
        exact (sublist_of_mem_splitBlock h).trans (take_drop_sublist _ _ _)
      | none =>
        rw [hclose] at h
        obtain rfl := List.mem_singleton.1 h
        exact .refl _
    · exact sublist_of_mem_splitTop h

theorem sublist_of_mem_looping {style : Header} {t keyword s : Text} (h : s ∈ (looping style t keyword).children) :
    s.Sublist (t.drop keyword.length) := by
  cases hclause : clause? style (t.drop keyword.length) with
  | none => simp [looping, hclause, Shape.children] at h
  | some clause =>
    rw [looping, hclause] at h
    exact (sublist_of_clause? hclause).1 s h

theorem sublist_of_mem_conditional {style : Header} {t s : Text} (h : s ∈ (conditional style t).children) :
    s.Sublist (t.drop 2) := by
  cases hclause : clause? style (t.drop 2) with
  | none => simp [conditional, hclause, Shape.children] at h
  | some clause =>
    obtain ⟨hbody, hrest⟩ := sublist_of_clause? hclause
    rw [conditional, hclause] at h
    rcases List.mem_append.1 h with hyes | hno
    · exact hbody s hyes
    · cases helse : dropPrefix? "else".toList clause.rest with
      | none =>
        rw [helse] at hno
        cases hno
      | some branch =>
        rw [helse] at hno
        rw [dropPrefix?_eq_some_iff.1 helse] at hrest
        exact (sublist_of_mem_otherBranch hno).trans
          ((trimStart_sublist branch).trans ((List.sublist_append_right _ _).trans hrest))

theorem bare_sublist (t : Text) : (bare t).Sublist t :=
  (dropEndWhile_sublist _ _).trans ((dropEndWhile_sublist _ _).trans (trim_sublist t))

theorem ne_nil_of_beginsWithWord {t word : Text} (hword : word ≠ []) (h : beginsWithWord t word = true) : t ≠ [] := by
  rintro rfl
  cases word with
  | nil => exact hword rfl
  | cons c word => cases h

theorem inside_of_mem_decompose {style : Header} {fragment s : Text}
    (h : s ∈ (decompose style fragment).children) : Inside s fragment := by
  refine Inside.trans_sublist ?_ (bare_sublist fragment)
  by_cases hif : beginsWithWord (bare fragment) "if".toList = true
  · simp only [decompose, hif, if_true] at h
    exact inside_of_drop (ne_nil_of_beginsWithWord (by decide) hif) (by decide) (sublist_of_mem_conditional h)
  by_cases hfor : beginsWithWord (bare fragment) "for".toList = true
  · simp only [decompose, hif, hfor, if_true] at h
    exact inside_of_drop (ne_nil_of_beginsWithWord (by decide) hfor) (by decide) (sublist_of_mem_looping h)
  by_cases hwhile : beginsWithWord (bare fragment) "while".toList = true
  · simp only [decompose, hif, hfor, hwhile, if_true] at h
    exact inside_of_drop (ne_nil_of_beginsWithWord (by decide) hwhile) (by decide) (sublist_of_mem_looping h)
  by_cases hloop : beginsWithWord (bare fragment) "loop".toList = true
  · simp only [decompose, hif, hfor, hwhile, hloop, if_true] at h
    exact inside_of_drop (ne_nil_of_beginsWithWord (by decide) hloop) (by decide) (sublist_of_mem_looping h)
  have hflat : IsFlat (decompose style fragment) := by
    refine decompose_flat rfl fun w hw => Bool.eq_false_iff.2 ?_
    simp only [suiteWords, List.mem_cons, List.not_mem_nil, or_false] at hw
    rcases hw with rfl | rfl | rfl | rfl <;> assumption
  rw [hflat.children_eq] at h
  cases h

end Braced

/-- **The statements inside a statement** are inside it, in every dialect and whatever its text. -/
theorem inside_of_mem_children {d : Dialect} {t s : Text} (h : s ∈ (d.decompose t).children) : Inside s t := by
  cases d with
  | indented => exact Indented.inside_of_mem_decompose h
  | braced style => exact Braced.inside_of_mem_decompose h
  | unread => cases h

end Statement

end Concord
