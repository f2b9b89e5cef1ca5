/-
Statements in braces. The printed text of a statement tree decomposes into the shape of
that tree (`decompose_bared`), whether or not a semicolon ends it.
-/
import Concord.Proofs.Statement.Block

namespace Concord.Statement.Braced

open Text Code

variable {word header suite : Text}

/-! ## Headers and branches -/

/-- A header ends before the first brace outside brackets. -/
theorem header?_bare (hclosed : Closed header) (htop : TopAll (· != '{') header) (t : Text) :
    header? .bare (header ++ '{' :: t) = some (trim header, '{' :: t) := by
  have hquiet : ∀ cell ∈ scan header, cell.isTop = true → ∀ u, startsWith (cell.char :: u) ['{'] = false := by
    intro cell hcell hcode u
    have hchar : cell.char ≠ '{' := bne_iff_ne.1 (htop cell hcell hcode)
    rw [startsWith_cons, beq_eq_false_iff_ne.2 (Ne.symm hchar), Bool.false_and]
  have hplace : findTop? ['{'] (header ++ '{' :: t) = some header.length := by
    have hwalk : firstTop? (startsWith · ['{']) (header ++ '{' :: t) (scanFrom (.code 0 none) (header ++ '{' :: t)) =
        (firstTop? (startsWith · ['{']) ('{' :: t) (scanFrom (.code 0 (header.getLast?.or none)) ('{' :: t))).map
          (· + header.length) := firstTop?_closed hclosed hquiet (by decide) _
    rw [findTop?, findTopWhere?_zero, hwalk, firstTop?_here (.inr rfl) rfl]
    simp
  have hstyle : (Header.bare == Header.parenthesised) = false := by decide
  simp only [header?, hstyle, Bool.false_and, Bool.false_eq_true, if_false, hplace, Option.map_some,
    List.take_left, List.drop_left]

theorem closeOf?_braces {inner : Text} (hinner : Closed inner) (t : Text) :
    closeOf? ('{' :: (inner ++ '}' :: t)) 0 = some (inner.length + 1) := by
  have h := closeOf?_group closed_nil hinner (o := '{') (c := '}') rfl rfl t
  simpa using h

theorem take_drop_braces (inner t : Text) :
    (('{' :: (inner ++ '}' :: t)).take (inner.length + 1)).drop 1 = inner := by simp

/-- **A header, its suite and what follows it** are told apart. -/
theorem clause?_bare (hclosed : Closed header) (htop : TopAll (· != '{') header)
    (hstart : ∀ c, header.head? = some c → isBlank c = false) {inner : Text} (hinner : Closed inner) (t : Text) :
    clause? .bare (' ' :: (header ++ '{' :: (inner ++ '}' :: t))) =
      some ⟨trim header, splitBlock inner, trimStart t⟩ := by
  have htrim : trimStart (' ' :: (header ++ '{' :: (inner ++ '}' :: t))) =
      header ++ '{' :: (inner ++ '}' :: t) := by
    refine (trimStart_append_blank (u := [' ']) (by decide) _).trans (trimStart_of_head fun c hc => ?_)
    cases header with
    | nil => exact Option.some.inj hc ▸ (by decide)
    | cons d u => exact hstart c hc
  have hbrace : (('{' :: (inner ++ '}' :: t)).head? == some '{') = true := rfl
  have hrest : ('{' :: (inner ++ '}' :: t)).drop (inner.length + 1 + 1) = t := by simp
  simp only [clause?, htrim, header?_bare hclosed htop, Option.bind_eq_bind, Option.bind_some, hbrace, if_true,
    closeOf?_braces hinner, take_drop_braces, hrest]
  rfl

theorem otherBranch_braces {inner : Text} (hinner : Closed inner) :
    otherBranch ('{' :: (inner ++ ['}'])) = splitBlock inner := by
  have hif : beginsWithWord ('{' :: (inner ++ ['}'])) "if".toList = false := rfl
  have hbrace : (('{' :: (inner ++ ['}'])).head? == some '{') = true := rfl
  simp only [otherBranch, hif, Bool.false_eq_true, if_false, hbrace, if_true, closeOf?_braces hinner,
    take_drop_braces]

/-! ## Compound statements -/

theorem bare_of_ends {t : Text} (htrim : trim t = t) (hlast : t.getLast? ≠ some ';') : bare t = t := by
  have hstrip : stripTrailing ';' t = t := dropEndWhile_of_last fun c hc => by
    rw [beq_eq_false_iff_ne]
    rintro rfl
    exact hlast hc
  rw [bare, htrim, hstrip]
  exact trimEnd_of_last (trim_eq_self_iff.1 htrim).2

theorem bare_word {w v : Text} (hw : w ∈ blockWords) (hlast : (w ++ v).getLast? = some '}') :
    bare (w ++ v) = w ++ v :=
  bare_of_ends (trim_word hw hlast) (by rw [hlast]; decide)

/-- A condition or a header that can stand before a brace. -/
structure IsHeading (t : Text) : Prop where
  nonempty : t ≠ []
  trimmed : trim t = t
  closed : Closed t
  top : TopAll (· != '{') t

instance (t : Text) : Decidable (IsHeading t) :=
  decidable_of_iff (t ≠ [] ∧ trim t = t ∧ Closed t ∧ TopAll (· != '{') t)
    ⟨fun ⟨h1, h2, h3, h4⟩ => ⟨h1, h2, h3, h4⟩, fun h => ⟨h.1, h.2, h.3, h.4⟩⟩

/-- A heading with the space before its brace. -/
theorem IsHeading.spaced (h : IsHeading header) : Closed (header ++ [' ']) ∧ TopAll (· != '{') (header ++ [' ']) ∧
    (∀ c, (header ++ [' ']).head? = some c → isBlank c = false) ∧ trim (header ++ [' ']) = header := by
  refine ⟨h.closed.append (by decide) (.inr (by decide)), h.top.append (by decide) h.closed (.inr (by decide)),
    fun c hc => ?_, trim_pad (u := []) h.trimmed (by simp) (by decide)⟩
  obtain ⟨d, u, rfl⟩ := List.exists_cons_of_ne_nil h.nonempty
  exact (trim_eq_self_iff.1 h.trimmed).1 c hc

/-- **A conditional in braces** has its condition, its suite and what `else` adds to them. -/
theorem decompose_if (h : IsHeading header) {inner : Text} (hinner : Closed inner) {other : Text}
    (hlast : ('}' :: other).getLast? = some '}') :
    decompose .bare ("if".toList ++ ' ' :: ((header ++ [' ']) ++ '{' :: (inner ++ '}' :: other))) =
      .conditional (stripParens header) (splitBlock inner)
        ((dropPrefix? "else".toList (trimStart other)).map fun branch => otherBranch (trimStart branch)) := by
  obtain ⟨hclosed, htop, hstart, htrim⟩ := h.spaced
  have hclause := clause?_bare hclosed htop hstart hinner other
  have hend : (' ' :: ((header ++ [' ']) ++ '{' :: (inner ++ '}' :: other))).getLast? = some '}' :=
    getLast?_append_some (a := ' ' :: (header ++ [' '])) (getLast?_append_some (a := '{' :: inner) hlast)
  have hbare := bare_word (by decide : "if".toList ∈ blockWords) (getLast?_append_some hend)
  generalize (header ++ [' ']) ++ '{' :: (inner ++ '}' :: other) = u at hbare hclause ⊢
  have hif : beginsWithWord ("if".toList ++ ' ' :: u) "if".toList = true := rfl
  have hdrop : ("if".toList ++ ' ' :: u).drop 2 = ' ' :: u := rfl
  simp only [decompose, hbare, hif, if_true, conditional, hdrop, hclause, htrim]

/-- The words that begin a loop. -/
def loopWords : List Text := ["for".toList, "while".toList, "loop".toList]

theorem loopWord_blockWord : ∀ w ∈ loopWords, w ∈ blockWords := by decide

/-- **A loop in braces** has its header and its suite. -/
theorem decompose_loopWord {w : Text} (hw : w ∈ loopWords) (hclosed : Closed header)
    (htop : TopAll (· != '{') header) (hstart : ∀ c, header.head? = some c → isBlank c = false) {inner : Text}
    (hinner : Closed inner) :
    decompose .bare (w ++ ' ' :: (header ++ '{' :: (inner ++ ['}']))) =
      .loop (if w == "loop".toList then "true".toList else trim header) (splitBlock inner) := by
  have hclause := clause?_bare hclosed htop hstart hinner []
  have hend : (' ' :: (header ++ '{' :: (inner ++ ['}']))).getLast? = some '}' :=
    getLast?_append_some (a := ' ' :: header) (getLast?_append_some (a := '{' :: inner) rfl)
  have hbare := bare_word (loopWord_blockWord w hw) (getLast?_append_some hend)
  generalize header ++ '{' :: (inner ++ ['}']) = u at hbare hclause ⊢
  have hlooping : looping .bare (w ++ ' ' :: u) w =
      .loop (if w == "loop".toList then "true".toList else trim header) (splitBlock inner) := by
    simp only [looping, List.drop_left, hclause]
  -- no word of a loop begins with another word that is tried before it
  simp only [decompose, hbare]
  simp only [loopWords, List.mem_cons, List.not_mem_nil, or_false] at hw
  rcases hw with rfl | rfl | rfl <;> exact hlooping

/-! ## Simple statements -/

theorem bare_phrase {t : Text} (h : IsPhrase t) : bare t = t := bare_of_ends h.trimmed h.last_ne

/-- The semicolon after a statement is no part of it. -/
theorem bare_semicolon {t : Text} (hne : t ≠ []) (htrim : trim t = t) (hlast : t.getLast? ≠ some ';') :
    bare (t ++ [';']) = t := by
  have htrim' : trim (t ++ [';']) = t ++ [';'] := by
    refine trim_eq_self_iff.2 ⟨fun c hc => ?_, fun c hc => ?_⟩
    · obtain ⟨x, u, rfl⟩ := List.exists_cons_of_ne_nil hne
      exact (trim_eq_self_iff.1 htrim).1 c hc
    · rw [getLast?_append_some (c := ';') rfl, Option.some.injEq] at hc
      exact hc ▸ (by decide)
  have hstrip : stripTrailing ';' (t ++ [';']) = stripTrailing ';' t := dropEndWhile_append t (by decide)
  have hbare := bare_of_ends htrim hlast
  rw [bare, htrim] at hbare
  rw [bare, htrim', hstrip, hbare]

/-- The equals sign of an assignment is looked for after plain characters that are none. -/
theorem equalsPlace?_plain {w : Text} (hw : ∀ c ∈ w, isPlain c = true ∧ c ≠ '=') (prev : Option Char)
    (t : Text) :
    equalsPlace? prev (w ++ t) (scanFrom (.code 0 prev) (w ++ t)) =
      (equalsPlace? (w.getLast?.or prev) t (scanFrom (.code 0 (w.getLast?.or prev)) t)).map
          (· + w.length) := by
  induction w generalizing prev with
  | nil => simp
  | cons c w ih =>
    have hc : (c == '=') = false := beq_eq_false_iff_ne.2 (hw c (by simp)).2
    rw [List.cons_append, scanFrom_plain (hw c (by simp)).1, equalsPlace?, hc]
    simp only [Bool.and_false, Bool.false_and, Bool.false_eq_true, if_false]
    rw [ih (fun x hx => hw x (by simp [hx]))]
    simp [List.getLast?_cons, Function.comp_def, Nat.add_assoc]

theorem equalsPlace?_none {t : Text} (prev : Option Char) (cells : List Cell)
    (htext : cells.map Cell.char = t) (h : ∀ cell ∈ cells, cell.isTop = true → (cell.char != '=') = true) :
    equalsPlace? prev t cells = none := by
  subst htext
  induction cells generalizing prev with
  | nil => rfl
  | cons cell cells ih =>
    have hnot : (cell.isTop && cell.char == '=') = false := by
      rw [Bool.and_eq_false_imp]
      intro htop
      simpa using h cell (by simp) htop
    rw [List.map_cons, equalsPlace?, hnot]
    simp only [Bool.false_and, Bool.false_eq_true, if_false]
    rw [ih _ fun x hx => h x (by simp [hx])]
    rfl

theorem target_trimmed (f : FieldName) : trim ("self.".toList ++ f.text) = "self.".toList ++ f.text := by
  refine trim_eq_self_iff.2 ⟨fun c hc => Option.some.inj hc ▸ (by decide), fun c hc => ?_⟩
  have hlast := getLast?_append_some (a := "self.".toList) (List.getLast?_eq_some_getLast f.nonempty)
  rw [hlast, Option.some.injEq] at hc
  exact hc ▸ isBlank_of_isPathChar (f.isPathChar (List.getLast_mem f.nonempty))

theorem target_chars (f : FieldName) : ∀ c ∈ "self.".toList ++ f.text, isPathChar c = true := by
  intro c hc
  rcases List.mem_append.1 hc with hc | hc
  · exact (by decide : ∀ c ∈ "self.".toList, isPathChar c = true) c hc
  · exact f.isPathChar hc

theorem trailingOperator?_target (f : FieldName) : trailingOperator? ("self.".toList ++ f.text) = none := by
  have hlast := getLast?_append_some (a := "self.".toList) (List.getLast?_eq_some_getLast f.nonempty)
  have hbad : f.text.getLast f.nonempty ∉ "+-*/%&|^".toList :=
    isPathChar_of_not (by decide) (f.isPathChar (List.getLast_mem f.nonempty))
  have hcontains : "+-*/%&|^".toList.contains (f.text.getLast f.nonempty) = false := by
    rw [← Bool.not_eq_true, List.contains_iff_mem]
    exact hbad
  simp only [trailingOperator?, hlast, hcontains, Bool.false_eq_true, if_false]

theorem assign_text (f : FieldName) (e : Phrase) :
    (Simple.assign f e).text = (("self.".toList ++ f.text) ++ [' ']) ++ '=' :: ' ' :: e.text := by
  rw [List.append_assoc, List.append_assoc]
  rfl

theorem equalsPlace?_assign (f : FieldName) (e : Phrase) :
    equalsPlace? none (Simple.assign f e).text (scan (Simple.assign f e).text) =
      some (("self.".toList ++ f.text) ++ [' ']).length := by
  have hplain : ∀ c ∈ ("self.".toList ++ f.text) ++ [' '], isPlain c = true ∧ c ≠ '=' := by
    intro c hc
    rcases List.mem_append.1 hc with hc | hc
    · have hbad : c ∉ ['='] := isPathChar_of_not (by decide) (target_chars f c hc)
      exact ⟨isPlain_of_isPathChar (target_chars f c hc), by simpa using hbad⟩
    · exact (by decide : ∀ c ∈ [' '], isPlain c = true ∧ c ≠ '=') c hc
  have hlast : (("self.".toList ++ f.text) ++ [' ']).getLast? = some ' ' := getLast?_append_some rfl
  rw [assign_text, scan, Cursor.start, equalsPlace?_plain hplain, hlast, scanFrom_plain (by decide),
    equalsPlace?]
  simp [Cell.isTop]

theorem assignment?_assign (f : FieldName) (e : Phrase) :
    assignment? (Simple.assign f e).text = some (Simple.assign f e).shape := by
  have hdeclared : declared? (Simple.assign f e).text = none := rfl
  have hleft : trim ((Simple.assign f e).text.take (("self.".toList ++ f.text) ++ [' ']).length) =
      "self.".toList ++ f.text := by
    rw [assign_text, List.take_left]
    exact trim_pad (u := []) (target_trimmed f) (by simp) (by decide)
  have hvalue : trim ((Simple.assign f e).text.drop ((("self.".toList ++ f.text) ++ [' ']).length + 1)) =
      e.text := by
    rw [assign_text, List.drop_length_add_append]
    exact trim_cons_space e.isPhrase.trimmed
  have hspace : ("self.".toList ++ f.text).contains ' ' = false := by
    rw [← Bool.not_eq_true, List.contains_iff_mem]
    exact fun hc => absurd (target_chars f _ hc) (by decide)
  have hempty : ("self.".toList ++ f.text).isEmpty = false := rfl
  have hall : (("self.".toList ++ f.text).all fun c =>
      isAlphanumeric c || c == '_' || c == '.' || c == '[' || c == ']' || c == '*') = true := by
    rw [List.all_eq_true]
    intro c hc
    have hpath := target_chars f c hc
    rw [isPathChar] at hpath
    simp only [hpath, Bool.true_or]
  simp only [assignment?, hdeclared, Option.getD_none, equalsPlace?_assign, Option.bind_eq_bind,
    Option.bind_some, hleft, hvalue, Option.isNone_none, if_true, trailingOperator?_target,
    Option.isSome_none, Bool.false_eq_true, if_false, hspace, Bool.false_and, hempty, hall,
    Bool.not_true, Bool.or_self]
  rfl

theorem call_topAll (c : Call) : TopAll (· != '=') (callText c.path c.arguments) := by
  have hplain : ∀ x ∈ c.path, isPlain x = true ∧ (x != '=') = true := fun x hx => by
    refine ⟨isPlain_of_isPathChar (c.chars x hx), ?_⟩
    have hbad : x ∉ ['='] := isPathChar_of_not (by decide) (c.chars x hx)
    simpa using hbad
  exact (topAll_of_plain hplain).append (topAll_group rfl rfl c.closed (by decide) (by decide))
    (closed_of_plain fun x hx => (hplain x hx).1) (.inr (by simp))

theorem declared?_call (c : Call) : declared? (callText c.path c.arguments) = none := by
  have hmut : dropPrefix? "let mut ".toList (callText c.path c.arguments) = none :=
    c.dropPrefix?_word (w := "let".toList) (v := "mut ".toList) (x := ' ') (by decide) (by decide)
      (by decide)
  have hlet : dropPrefix? "let ".toList (callText c.path c.arguments) = none := c.dropPrefix?_spaced (w := "let".toList) (by decide)
  have hconst : dropPrefix? "const ".toList (callText c.path c.arguments) = none :=
    c.dropPrefix?_spaced (w := "const".toList) (by decide)
  have hvar : dropPrefix? "var ".toList (callText c.path c.arguments) = none := c.dropPrefix?_spaced (w := "var".toList) (by decide)
  have hfinal : dropPrefix? "final ".toList (callText c.path c.arguments) = none :=
    c.dropPrefix?_spaced (w := "final".toList) (by decide)
  simp only [declared?, List.findSome?_cons, List.findSome?_nil, hmut, hlet, hconst, hvar, hfinal]

theorem assignment?_call (c : Call) : assignment? (callText c.path c.arguments) = none := by
  have hplace : equalsPlace? none (callText c.path c.arguments) (scan (callText c.path c.arguments)) = none :=
    equalsPlace?_none none _ (map_char_scanFrom .start _) (call_topAll c)
  simp only [assignment?, declared?_call, Option.getD_none, hplace]
  rfl

theorem call_not_beginsWithWord (c : Call) {w : Text} (hw : ∀ y ∈ w, isPathChar y = true)
    (hword : w ∈ compoundWords) : beginsWithWord (callText c.path c.arguments) w = false := by
  rw [← Bool.not_eq_true]
  intro h
  simp only [beginsWithWord] at h
  split at h
  · rename_i hdrop
    rw [dropPrefix?_eq_some_iff, List.append_nil] at hdrop
    exact c.ne_word hw hdrop
  · rename_i x v hdrop
    rw [dropPrefix?_eq_some_iff] at hdrop
    have hx : isPathChar x = false := by
      rw [← Bool.not_eq_true]
      intro hpath
      rw [isBlank_of_isPathChar hpath, Bool.false_or] at h
      simp only [Bool.or_eq_true, beq_iff_eq] at h
      rcases h with rfl | rfl <;> exact absurd hpath (by decide)
    exact c.unreserved ((c.eq_of_word hw hx hdrop).1 ▸ hword)
  · cases h

theorem dropEnd_of_last {p t : Text} (h : p.getLast?.isSome) (hlast : t.getLast? ≠ p.getLast?) :
    dropEnd p t = t := by
  have hsuffix : p.isSuffixOf t = false := by
    rw [← Bool.not_eq_true, List.isSuffixOf_iff_suffix]
    rintro ⟨u, rfl⟩
    obtain ⟨x, hx⟩ := Option.isSome_iff_exists.1 h
    exact hlast (by rw [hx]; exact getLast?_append_some hx)
  simp [dropEnd, dropSuffix?, hsuffix]

theorem bareCall_call (c : Call) : bareCall (callText c.path c.arguments) = callText c.path c.arguments := by
  have hquestion : stripTrailing '?' (callText c.path c.arguments) = callText c.path c.arguments :=
    dropEndWhile_of_last fun x hx => by
      rw [getLast?_call, Option.some.injEq] at hx
      exact hx ▸ (by decide)
  have hawait : dropEnd ".await".toList (callText c.path c.arguments) = callText c.path c.arguments :=
    dropEnd_of_last rfl (by rw [getLast?_call]; decide)
  have hunwrap : dropEnd ".unwrap()".toList (callText c.path c.arguments) = callText c.path c.arguments := by
    have hkept : ".unwrap()".toList.isSuffixOf (callText c.path c.arguments) = false := c.kept
    simp only [dropEnd, dropSuffix?, hkept, Bool.false_eq_true, if_false, Option.getD_none]
  simp only [bareCall, bare_phrase (call_isPhrase c), dropCallEnds, hquestion, hawait, hunwrap,
    beq_self_eq_true, if_true]

theorem decompose_call (c : Call) :
    decompose .bare (callText c.path c.arguments) = .call (callText c.path c.arguments) := by
  have hif := call_not_beginsWithWord c (w := "if".toList) (by decide) (by decide)
  have hfor := call_not_beginsWithWord c (w := "for".toList) (by decide) (by decide)
  have hwhile := call_not_beginsWithWord c (w := "while".toList) (by decide) (by decide)
  have hloop := call_not_beginsWithWord c (w := "loop".toList) (by decide) (by decide)
  have hreturn : (callText c.path c.arguments == "return".toList) = false :=
    beq_eq_false_iff_ne.2 (c.ne_word (by decide))
  have hgive : dropPrefix? "return ".toList (callText c.path c.arguments) = none :=
    c.dropPrefix?_spaced (w := "return".toList) (by decide)
  have hthrow : dropPrefix? "throw ".toList (callText c.path c.arguments) = none :=
    c.dropPrefix?_spaced (w := "throw".toList) (by decide)
  have hraising : raisingCalls.any (startsWith (callText c.path c.arguments)) = false := by
    have hbang : ∀ p ∈ raisingCalls,
        p = p.dropLast ++ ['!'] ∧ ∀ y ∈ p.dropLast, isPathChar y = true := by decide
    rw [List.any_eq_false]
    intro p hp
    rw [(hbang p hp).1, c.not_startsWith (hbang p hp).2 (by decide) (by decide)]
    simp
  have hawait : dropPrefix? "await ".toList (callText c.path c.arguments) = none :=
    c.dropPrefix?_spaced (w := "await".toList) (by decide)
  simp only [decompose, bare_phrase (call_isPhrase c), hif, hfor, hwhile, hloop, hreturn, hgive, hthrow,
    hraising, assignment?_call, bareCall_call, hawait, Option.getD_none, (call_isPhrase c).trimmed,
    c.looksLikeCall, Bool.false_eq_true, if_false, if_true]

theorem decompose_assign (f : FieldName) (e : Phrase) :
    decompose .bare (Simple.assign f e).text = (Simple.assign f e).shape := by
  have hif : beginsWithWord (Simple.assign f e).text "if".toList = false := rfl
  have hfor : beginsWithWord (Simple.assign f e).text "for".toList = false := rfl
  have hwhile : beginsWithWord (Simple.assign f e).text "while".toList = false := rfl
  have hloop : beginsWithWord (Simple.assign f e).text "loop".toList = false := rfl
  have hreturn : ((Simple.assign f e).text == "return".toList) = false := rfl
  have hgive : dropPrefix? "return ".toList (Simple.assign f e).text = none := rfl
  have hthrow : dropPrefix? "throw ".toList (Simple.assign f e).text = none := rfl
  have hraising : raisingCalls.any (startsWith (Simple.assign f e).text) = false := rfl
  simp only [decompose, bare_phrase (Simple.assign f e).isPhrase, hif, hfor, hwhile, hloop,
    hreturn, hgive, hthrow, hraising, assignment?_assign, Bool.false_eq_true, if_false]

theorem decompose_give (e : Phrase) : decompose .bare (Simple.give e).text = (Simple.give e).shape := by
  have hif : beginsWithWord (Simple.give e).text "if".toList = false := rfl
  have hfor : beginsWithWord (Simple.give e).text "for".toList = false := rfl
  have hwhile : beginsWithWord (Simple.give e).text "while".toList = false := rfl
  have hloop : beginsWithWord (Simple.give e).text "loop".toList = false := rfl
  have hreturn : ((Simple.give e).text == "return".toList) = false := rfl
  have hgive : dropPrefix? "return ".toList (Simple.give e).text = some e.text := dropPrefix?_append _ _
  simp only [decompose, bare_phrase (Simple.give e).isPhrase, hif, hfor, hwhile, hloop, hreturn, hgive,
    e.isPhrase.trimmed, Bool.false_eq_true, if_false, Simple.shape]

theorem decompose_simple : ∀ s : Simple, decompose .bare s.text = s.shape
  | .assign f e => decompose_assign f e
  | .call c => decompose_call c
  | .finish => rfl
  | .give e => decompose_give e

/-! ## Trees -/

theorem Condition.stripParens_text (c : Condition) : stripParens c.text = c.text := by
  simp only [stripParens, c.isPhrase.trimmed, c.bare, Bool.false_eq_true, if_false]

theorem isHeading_phrase (h : IsPhrase header) : IsHeading header where
  nonempty := h.nonempty
  trimmed := h.trimmed
  closed := h.closed
  top := h.top.imp fun c hc => by
    simp only [isInline, Bool.and_eq_true] at hc
    exact hc.1.2

theorem opening_block (word header suite : Text) (m depth : Nat) (t : Text) :
    opening word header ++ (block m depth suite ++ t) =
      word ++ ' ' :: ((header ++ [' ']) ++ '{' :: ((suite ++ newline m depth) ++ '}' :: t)) := by
  simp [opening, block]

theorem decompose_branch (m depth : Nat) (c : Condition) (yes : Suite) :
    decompose .bare ((Tree.branch c yes).braced m depth) =
      (Tree.branch c yes).shape (bared m (depth + 1)) := by
  have htext := opening_block "if".toList c.text (yes.braced m depth) m depth []
  rw [List.append_nil] at htext
  rw [Tree.braced, htext,
    decompose_if (isHeading_phrase c.isPhrase) (closed_inner (closed_suite m depth yes) m depth) rfl,
    Condition.stripParens_text, splitBlock_suite]
  rfl

theorem decompose_fork (m depth : Nat) (c : Condition) (yes no : Suite) :
    decompose .bare ((Tree.fork c yes no).braced m depth) =
      (Tree.fork c yes no).shape (bared m (depth + 1)) := by
  have hlast : ('}' :: (" else ".toList ++ block m depth (no.braced m depth))).getLast? = some '}' :=
    getLast?_append_some (a := '}' :: " else ".toList) (getLast?_block ..)
  have helse : dropPrefix? "else".toList (trimStart (" else ".toList ++ block m depth (no.braced m depth))) =
      some (' ' :: block m depth (no.braced m depth)) := rfl
  have htrim : trimStart (' ' :: block m depth (no.braced m depth)) = block m depth (no.braced m depth) := rfl
  rw [Tree.braced, opening_block,
    decompose_if (isHeading_phrase c.isPhrase) (closed_inner (closed_suite m depth yes) m depth) hlast,
    Condition.stripParens_text, splitBlock_suite, helse, Option.map_some, htrim, block,
    otherBranch_braces (closed_inner (closed_suite m depth no) m depth), splitBlock_suite]
  rfl

theorem decompose_loop (m depth : Nat) (w : LoopWord) (header : Phrase) (body : Suite) :
    decompose .bare ((Tree.loop w header body).braced m depth) =
      (Tree.loop w header body).shape (bared m (depth + 1)) := by
  obtain ⟨hclosed, htop, hstart, htrim⟩ := (isHeading_phrase header.isPhrase).spaced
  have hword : w.text ∈ loopWords ∧ (w.text == "loop".toList) = false := by cases w <;> decide
  have htext := opening_block w.text header.text (body.braced m depth) m depth []
  rw [List.append_nil] at htext
  rw [Tree.braced, htext, decompose_loopWord hword.1 hclosed htop hstart
    (closed_inner (closed_suite m depth body) m depth), hword.2, htrim, splitBlock_suite]
  rfl

/-- **A printed statement has the shape of its tree.** -/
theorem decompose_bared (m depth : Nat) (s : Tree) :
    decompose .bare (bared m depth s) = s.shape (bared m (depth + 1)) := by
  cases s with
  | simple s => exact decompose_simple s
  | branch c yes => exact decompose_branch m depth c yes
  | fork c yes no => exact decompose_fork m depth c yes no
  | loop w header body => exact decompose_loop m depth w header body

/-- The semicolon after a statement changes nothing. -/
theorem decompose_braced (m depth : Nat) (s : Tree) :
    decompose .bare (s.braced m depth) = s.shape (bared m (depth + 1)) := by
  cases s with
  | simple s =>
    have h := decompose_simple s
    rw [decompose, bare_phrase s.isPhrase] at h
    rw [Tree.braced, decompose, bare_semicolon s.isPhrase.nonempty s.isPhrase.trimmed s.isPhrase.last_ne]
    exact h
  | branch c yes => exact decompose_branch m depth c yes
  | fork c yes no => exact decompose_fork m depth c yes no
  | loop w header body => exact decompose_loop m depth w header body

theorem ownField?_self (f : FieldName) : ownField? ("self.".toList ++ f.text) = some f.text := by
  have hdrop : dropPrefix? "self.".toList ("self.".toList ++ f.text) = some f.text := dropPrefix?_append _ _
  simp only [ownField?, hdrop, Option.some_or, Option.bind_eq_bind, Option.bind_some, f.all_name]
  rfl

end Concord.Statement.Braced
