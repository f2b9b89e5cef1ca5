/-
Simple statements and headers: their texts are phrases again (`Simple.isPhrase`), and a
call begins with no word but its path (`Call.eq_of_word`).
-/
import Concord.Proofs.Statement.Tree

namespace Concord.Statement

open Text Code

/-! ## Characters of names -/

theorem isPathChar_of_not {c : Char} {bad : List Char} (hbad : ∀ x ∈ bad, isPathChar x = false)
    (h : isPathChar c = true) : c ∉ bad := by
  intro hmem
  rw [hbad c hmem] at h
  cases h

theorem isPlain_of_isPathChar {c : Char} (h : isPathChar c = true) : isPlain c = true :=
  isPlain_of_class (by decide) h

theorem isBlank_of_isPathChar {c : Char} (h : isPathChar c = true) : isBlank c = false := by
  simp only [isPathChar, Bool.or_eq_true, beq_iff_eq] at h
  rcases h with (h | rfl) | rfl
  · exact isBlank_of_isAlphanumeric h
  · decide
  · decide

theorem isAscii_of_name {c : Char} (h : (isAsciiLetter c || isAsciiDigit c || c == '_') = true) :
    c.toNat < 128 := by
  simp only [Bool.or_eq_true, beq_iff_eq] at h
  rcases h with (h | h) | rfl
  · have := toNat_of_isAsciiLetter h
    omega
  · have := toNat_of_isAsciiDigit h
    omega
  · decide

/-- The characters of field names are those of words, of names and of paths. -/
theorem classes_of_name {c : Char} (h : (isAsciiLetter c || isAsciiDigit c || c == '_') = true) :
    isWord c = true ∧ (isAlphanumeric c || c == '_') = true := by
  have hascii := isAscii_of_name h
  have hname := h
  simp only [Bool.or_eq_true] at h
  refine ⟨by simp [isWord, inClass, hascii, hname], ?_⟩
  simp only [isAlphanumeric, isAlphabetic, isNumeric, inClass, if_pos hascii, Bool.or_eq_true]
  exact h

/-! ## Phrases -/

/-- Plain characters before a phrase make a phrase, if they begin with something to see. -/
theorem IsPhrase.prepend {w t : Text} {c : Char} (ht : IsPhrase t) (hhead : w.head? = some c)
    (hblank : isBlank c = false) (hfresh : Fresh w.getLast?)
    (hw : ∀ c ∈ w, isPlain c = true ∧ isInline c = true) (hline : '\n' ∉ w) :
    IsPhrase (w ++ t) := by
  obtain ⟨d, hd⟩ := Option.isSome_iff_exists.1 (List.getLast?_isSome.2 ht.nonempty)
  have hlast : (w ++ t).getLast? = t.getLast? := by rw [getLast?_append_some hd, hd]
  exact {
    nonempty := by simp [ht.nonempty]
    trimmed := by
      refine trim_eq_self_iff.2 ⟨fun x hx => ?_, ?_⟩
      · rw [head?_append_some hhead, Option.some.injEq] at hx
        exact hx ▸ hblank
      · rw [hlast]
        exact (trim_eq_self_iff.1 ht.trimmed).2
    oneLine := by simp [hline, ht.oneLine]
    closed := (closed_of_plain fun c hc => (hw c hc).1).append ht.closed (.inl hfresh)
    top := (topAll_of_plain hw).append ht.top (closed_of_plain fun c hc => (hw c hc).1) (.inl hfresh)
    unescaped := by rw [hlast]; exact ht.unescaped }

/-- A phrase ends with no semicolon. -/
theorem IsPhrase.last_ne {t : Text} (h : IsPhrase t) : t.getLast? ≠ some ';' :=
  h.closed.last_ne h.top (by decide) (by decide)

theorem isPlain_and_ok_of_isPathChar {c : Char} (h : isPathChar c = true) :
    isPlain c = true ∧ isInline c = true := by
  have hbad : c ∉ [':', ';', '{', '}'] := isPathChar_of_not (by decide) h
  exact ⟨isPlain_of_isPathChar h, by simpa [isInline, and_assoc] using hbad⟩

theorem FieldName.isPathChar (f : FieldName) {c : Char} (hc : c ∈ f.text) : isPathChar c = true := by
  have hname := (classes_of_name (f.ascii c hc)).2
  simp only [Statement.isPathChar, hname, Bool.true_or]

theorem FieldName.all_name (f : FieldName) : (f.text.all fun c => isAlphanumeric c || c == '_') = true := by
  rw [List.all_eq_true]
  intro c hc
  exact (classes_of_name (f.ascii c hc)).2

theorem assign_isPhrase (f : FieldName) (e : Phrase) :
    IsPhrase ("self.".toList ++ (f.text ++ (" = ".toList ++ e.text))) := by
  have hsplit : "self.".toList ++ (f.text ++ (" = ".toList ++ e.text)) =
      ("self.".toList ++ (f.text ++ " = ".toList)) ++ e.text := by simp
  have hlast : ("self.".toList ++ (f.text ++ " = ".toList)).getLast? = some ' ' :=
    getLast?_append_some (getLast?_append_some rfl)
  rw [hsplit]
  refine e.isPhrase.prepend (c := 's') rfl (by decide) (by rw [hlast]; decide) (fun c hc => ?_) ?_
  · simp only [List.mem_append] at hc
    rcases hc with hc | hc | hc
    · exact (by decide : ∀ c ∈ "self.".toList, isPlain c = true ∧ isInline c = true) c hc
    · exact isPlain_and_ok_of_isPathChar (f.isPathChar hc)
    · exact (by decide : ∀ c ∈ " = ".toList, isPlain c = true ∧ isInline c = true) c hc
  · simp only [List.mem_append, not_or]
    refine ⟨by decide, fun hc => ?_, by decide⟩
    exact absurd (f.isPathChar hc) (by decide)

theorem Call.head (c : Call) : ∃ x, c.path.head? = some x ∧ (isAlphabetic x || x == '_') = true := by
  have h := c.start
  rw [Option.any_eq_true] at h
  exact h

theorem getLast?_call (c : Call) : (callText c.path c.arguments).getLast? = some ')' :=
  getLast?_append_some (getLast?_append_some (a := '(' :: c.arguments) rfl)

theorem call_isPhrase (c : Call) : IsPhrase (callText c.path c.arguments) := by
  obtain ⟨x, hx, -⟩ := c.head
  have hhead : (callText c.path c.arguments).head? = some x := head?_append_some hx
  have hlast := getLast?_call c
  have hpath : Closed c.path := closed_of_plain fun y hy => isPlain_of_isPathChar (c.chars y hy)
  exact {
    nonempty := by simp [callText]
    trimmed := by
      refine trim_eq_self_iff.2 ⟨fun y hy => ?_, fun y hy => ?_⟩
      · rw [hhead, Option.some.injEq] at hy
        exact hy ▸ isBlank_of_isPathChar (c.chars x (List.mem_of_head? hx))
      · rw [hlast, Option.some.injEq] at hy
        exact hy ▸ (by decide)
    oneLine := by
      simp only [callText, List.mem_append, List.mem_cons, List.not_mem_nil, or_false, not_or]
      exact ⟨fun h => absurd (c.chars _ h) (by decide), by decide, c.oneLine, by decide⟩
    closed := hpath.append (c.closed.group rfl rfl) (.inr (by simp))
    top := by
      have hok : TopAll isInline c.path :=
        topAll_of_plain fun y hy => isPlain_and_ok_of_isPathChar (c.chars y hy)
      exact hok.append (topAll_group rfl rfl c.closed (by decide) (by decide)) hpath (.inr (by simp))
    unescaped := by rw [hlast]; decide }

theorem Simple.isPhrase : ∀ s : Simple, IsPhrase s.text
  | .assign f e => assign_isPhrase f e
  | .call c => call_isPhrase c
  | .finish => by decide
  | .give e => e.isPhrase.prepend (c := 'r') rfl (by decide) (by decide) (by decide) (by decide)

/-- A simple statement begins with a name. -/
theorem Simple.head : ∀ s : Simple, ∃ c, s.text.head? = some c ∧ isPathChar c = true
  | .assign _ _ => ⟨'s', rfl, by decide⟩
  | .call c => by
    obtain ⟨x, hx, -⟩ := c.head
    exact ⟨x, head?_append_some hx, c.chars x (List.mem_of_head? hx)⟩
  | .finish => ⟨'r', rfl, by decide⟩
  | .give _ => ⟨'r', rfl, by decide⟩

/-! ## Words at the beginning -/

/-- The path of a call is what stands before the first character that is none of a path. -/
theorem Call.eq_of_word (c : Call) {w v : Text} {x : Char} (hw : ∀ y ∈ w, isPathChar y = true)
    (hx : isPathChar x = false) (h : callText c.path c.arguments = w ++ x :: v) : w = c.path ∧ x = '(' := by
  have hpath : (callText c.path c.arguments).takeWhile isPathChar = c.path := by
    rw [callText, List.takeWhile_append_of_pos c.chars, List.takeWhile_cons_of_neg (by decide),
      List.append_nil]
  have hword : (callText c.path c.arguments).takeWhile isPathChar = w := by
    rw [h, List.takeWhile_append_of_pos hw, List.takeWhile_cons_of_neg (by simp [hx]), List.append_nil]
  have heq : w = c.path := hword.symm.trans hpath
  rw [heq, callText, List.append_cancel_left_eq, List.cons.injEq] at h
  exact ⟨heq, h.1.symm⟩

/-- No call begins with a word and something else than its parenthesis. -/
theorem Call.not_startsWith (c : Call) {w v : Text} {x : Char} (hw : ∀ y ∈ w, isPathChar y = true)
    (hx : isPathChar x = false) (hparen : x ≠ '(') :
    startsWith (callText c.path c.arguments) (w ++ x :: v) = false := by
  rw [← Bool.not_eq_true, startsWith_iff]
  rintro ⟨u, hu⟩
  rw [List.append_assoc, List.cons_append] at hu
  exact hparen (c.eq_of_word hw hx hu).2

theorem Call.dropPrefix?_word (c : Call) {w v : Text} {x : Char} (hw : ∀ y ∈ w, isPathChar y = true)
    (hx : isPathChar x = false) (hparen : x ≠ '(') :
    dropPrefix? (w ++ x :: v) (callText c.path c.arguments) = none :=
  dropPrefix?_eq_none_iff.2 (c.not_startsWith hw hx hparen)

theorem Call.dropPrefix?_spaced (c : Call) {w : Text} (hw : ∀ y ∈ w, isPathChar y = true) :
    dropPrefix? (w ++ [' ']) (callText c.path c.arguments) = none :=
  c.dropPrefix?_word hw (by decide) (by decide)

theorem Call.head_ne (c : Call) {x : Char} (hx : isPathChar x = false) :
    (callText c.path c.arguments).head? ≠ some x := by
  obtain ⟨y, hy, -⟩ := c.head
  rw [callText, head?_append_some hy, ne_eq, Option.some.injEq]
  rintro rfl
  rw [c.chars _ (List.mem_of_head? hy)] at hx
  cases hx

theorem Call.ne_word (c : Call) {w : Text} (hw : ∀ y ∈ w, isPathChar y = true) :
    callText c.path c.arguments ≠ w := by
  intro h
  have hmem : '(' ∈ w := by
    rw [← h]
    simp [callText]
  exact absurd (hw _ hmem) (by decide)

theorem Call.looksLikeCall (c : Call) : looksLikeCall (callText c.path c.arguments) = true := by
  obtain ⟨x, hx, hstart⟩ := c.head
  obtain ⟨u, hu⟩ := List.head?_eq_some_iff.1 hx
  have hpath : leadingPath (callText c.path c.arguments) = c.path := by
    have hchars : ∀ y ∈ c.path,
        (isAlphanumeric y || y == '_' || y == '.' || y == ':' || y == '!') = true := by
      intro y hy
      have h := c.chars y hy
      rw [isPathChar] at h
      simp only [h, Bool.true_or]
    rw [leadingPath, callText, List.takeWhile_append_of_pos hchars, List.takeWhile_cons_of_neg (by decide),
      List.append_nil]
  have hdrop : trimStart ((callText c.path c.arguments).drop c.path.length) =
      '(' :: (c.arguments ++ [')']) := by
    rw [callText, List.drop_left]
    exact trimStart_of_head (by simp; decide)
  simp only [Code.looksLikeCall, (call_isPhrase c).trimmed, hpath, hdrop, getLast?_call]
  rw [hu]
  simp only [hstart]
  rfl

end Concord.Statement
