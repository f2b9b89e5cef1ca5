/-
Statements whose suites are indented, read back: the lines of a tree are those of one
statement (`tree_isStatement`), and a printed statement has the shape of its tree
(`decompose_indented`).
-/
import Concord.Proofs.Statement.Compound
import Concord.Proofs.Statement.Simple

namespace Concord.Statement.Indented

open Text Code

/-! ## Lines of trees -/

theorem IsPhrase.isHeader {t : Text} (h : IsPhrase t) : IsHeader t where
  nonempty := h.nonempty
  trimmed := h.trimmed
  oneLine := h.oneLine
  closed := h.closed
  oneColon := by
    refine oneColon_of_top (h.top.imp fun c hc => ?_)
    rw [bne_iff_ne]
    rintro rfl
    exact absurd hc (by decide)

theorem IsPhrase.isCodeLine {t : Text} (h : IsPhrase t) : IsCodeLine t :=
  isCodeLine_of_trimmed h.nonempty h.trimmed h.oneLine h.closed h.unescaped

/-- A call begins with no word but its path. -/
theorem call_not_beginsWithWord (c : Call) {w : Text} (hw : ∀ y ∈ w, isPathChar y = true) (hne : w ≠ c.path) :
    beginsWithWord (callText c.path c.arguments) w = false := by
  rw [beginsWithWord]
  split
  · rename_i hdrop
    rw [dropPrefix?_eq_some_iff, List.append_nil] at hdrop
    exact absurd hdrop (c.ne_word hw)
  · rename_i x u hdrop
    rw [dropPrefix?_eq_some_iff] at hdrop
    rw [← Bool.not_eq_true]
    intro hx
    simp only [Bool.or_eq_true, beq_iff_eq] at hx
    have hbreak : isPathChar x = false := by
      rcases hx with ((rfl | rfl) | rfl) | rfl <;> decide
    exact hne (c.eq_of_word hw hbreak hdrop).1
  · rfl

theorem call_fresh (c : Call) : continuations.any (beginsWithWord (callText c.path c.arguments)) = false := by
  have hchars : ∀ w ∈ continuations, ∀ y ∈ w, isPathChar y = true := by decide
  have hwords : ∀ w ∈ continuations, w ∈ compoundWords ∨ startsWith w "else".toList = true := by decide
  rw [List.any_eq_false]
  intro w hw
  have hne : w ≠ c.path := by
    rintro rfl
    rcases hwords _ hw with h | h
    · exact c.unreserved h
    · rw [c.notElse] at h
      cases h
  rw [call_not_beginsWithWord c (hchars w hw) hne]
  exact Bool.false_ne_true

theorem simple_fresh : ∀ s : Simple, continuations.any (beginsWithWord s.text) = false
  | .assign _ _ => rfl
  | .call c => call_fresh c
  | .finish => rfl
  | .give _ => rfl

theorem simple_code : ∀ s : Simple, s.text.head? ≠ some '#'
  | .assign _ _ => (by decide : some 's' ≠ some '#')
  | .call c => c.head_ne (by decide)
  | .finish => by decide
  | .give _ => (by decide : some 'r' ≠ some '#')

theorem simple_begins (s : Simple) : Begins s.text := by
  have hphrase := s.isPhrase
  obtain ⟨x, u, hcons⟩ := List.exists_cons_of_ne_nil hphrase.nonempty
  refine ⟨?_, by rw [hphrase.trimmed, simple_fresh], by rw [hphrase.trimmed]; exact simple_code s⟩
  rw [hcons]
  exact (trim_eq_self_iff.1 hphrase.trimmed).1 x (by rw [hcons]; rfl)

theorem simple_notPass : ∀ s : Simple, s.text ≠ "pass".toList
  | .assign _ _ => fun h => absurd (congrArg List.head? h) (by decide : some 's' ≠ some 'p')
  | .call c => c.ne_word (by decide)
  | .finish => by decide
  | .give _ => fun h => absurd (congrArg List.head? h) (by decide : some 'r' ≠ some 'p')

theorem simple_isStatement (s : Simple) : IsStatement [s.text] where
  lines l hl := List.mem_singleton.1 hl ▸ IsPhrase.isCodeLine s.isPhrase
  begins := ⟨s.text, [], rfl, simple_begins s, by simp⟩
  notPass := by
    rw [join_singleton]
    exact simple_notPass s

mutual

/-- The lines of a tree are those of one statement. -/
theorem tree_isStatement (n : Nat) : ∀ s : Tree, IsStatement (s.lines n)
  | .simple s => simple_isStatement s
  | .branch c yes => isStatement_colonLine .choice (IsPhrase.isHeader c.isPhrase) (suite_goesOn n yes)
  | .fork c yes no => by
    refine isStatement_colonLine .choice (IsPhrase.isHeader c.isPhrase) fun l hl => ?_
    rcases List.mem_append.1 hl with hl | hl
    · exact suite_goesOn n yes l hl
    · rcases List.mem_cons.1 hl with rfl | hl
      · exact goesOn_else
      · exact suite_goesOn n no l hl
  | .loop w header body => isStatement_colonLine (.loop w) (IsPhrase.isHeader header.isPhrase) (suite_goesOn n body)

theorem suite_goesOn (n : Nat) : ∀ b : Suite, ∀ l ∈ (b.lines n).map (indent (n + 1)), GoesOn l
  | .last s => (tree_isStatement n s).goesOn n
  | .more s rest => by
    intro l hl
    rw [Suite.lines, List.map_append, List.mem_append] at hl
    exact hl.elim ((tree_isStatement n s).goesOn n l) (suite_goesOn n rest l)

end

/-- The lines of each statement of a suite. -/
def suiteBlocks (n : Nat) (b : Suite) : List (List Text) := b.trees.map (Tree.lines n)

theorem suite_lines (n : Nat) (b : Suite) : b.lines n = (suiteBlocks n b).flatten := by
  cases b with
  | last s => simp [Suite.lines, suiteBlocks, Suite.trees]
  | more s rest => simp [Suite.lines, suite_lines n rest, suiteBlocks, Suite.trees]

theorem suiteBlocks_ne_nil (n : Nat) (b : Suite) : suiteBlocks n b ≠ [] := by
  cases b <;> simp [suiteBlocks, Suite.trees]

theorem suiteBlocks_isStatement (n : Nat) (b : Suite) : ∀ ls ∈ suiteBlocks n b, IsStatement ls := by
  intro ls hls
  obtain ⟨s, -, rfl⟩ := List.mem_map.1 hls
  exact tree_isStatement n s

theorem map_join_blocks (n : Nat) (b : Suite) :
    (suiteBlocks n b).map (join ['\n']) = b.trees.map (Tree.indented n) := by
  rw [suiteBlocks, List.map_map]
  rfl

/-! ## Simple statements -/

theorem assignment?_assign (f : FieldName) (e : Phrase) :
    assignment? ("self.".toList ++ (f.text ++ (" = ".toList ++ e.text))) =
      some ("self.".toList ++ f.text, [], ' ' :: e.text) := by
  have hname : ("self.".toList ++ (f.text ++ (" = ".toList ++ e.text))).takeWhile
      (fun c => isWord c || c == '.') = "self.".toList ++ f.text := by
    have hself : ∀ c ∈ "self.".toList, (isWord c || c == '.') = true := by decide
    have hfield : ∀ c ∈ f.text, (isWord c || c == '.') = true := by
      intro c hc
      rw [(classes_of_name (f.ascii c hc)).1]
      rfl
    rw [List.takeWhile_append_of_pos hself, List.takeWhile_append_of_pos hfield]
    have hspace : (" = ".toList ++ e.text).takeWhile (fun c => isWord c || c == '.') = [] := rfl
    rw [hspace, List.append_nil]
  have hdrop : ("self.".toList ++ (f.text ++ (" = ".toList ++ e.text))).drop
      ("self.".toList ++ f.text).length = " = ".toList ++ e.text := by
    rw [← List.append_assoc, List.drop_left]
  have htarget : leadingTarget ("self.".toList ++ (f.text ++ (" = ".toList ++ e.text))) =
      "self.".toList ++ f.text := by
    simp only [leadingTarget, hname, hdrop]
    rfl
  have hhead : ("self.".toList ++ (f.text ++ (" = ".toList ++ e.text))).head? = some 's' := rfl
  have hvalue : operatorAndValue? (trimStart (" = ".toList ++ e.text)) = some ([], ' ' :: e.text) := rfl
  simp only [assignment?, hhead, Option.bind_eq_bind, Option.bind_some, htarget, hdrop, hvalue]
  rfl

/-- What follows the name that a call begins with is no operator. -/
theorem ne_operator {c : Char} (hc : isPathChar c = true ∨ c = '(') :
    ∀ x ∈ ":=-+*/%&|^@<>".toList, x ≠ c := by
  intro x hx he
  have hnone : ∀ x ∈ ":=-+*/%&|^@<>".toList, isPathChar x = false ∧ x ≠ '(' := by decide
  obtain ⟨h, h'⟩ := hnone x hx
  rcases hc with hc | hc
  · rw [← he, h] at hc
    cases hc
  · exact h' (he.trans hc)

theorem leadingOperator_none {c : Char} (hc : isPathChar c = true ∨ c = '(') (u : Text) :
    leadingOperator (c :: u) = [] := by
  have hone : "-+*/%&|^@".toList.contains c = false := by
    rw [← Bool.not_eq_true, List.contains_iff_mem]
    intro hmem
    exact ne_operator hc c ((by decide : ∀ x ∈ "-+*/%&|^@".toList, x ∈ ":=-+*/%&|^@<>".toList) c hmem) rfl
  have htwo (x : Char) (hx : x ∈ ":=-+*/%&|^@<>".toList) : ((c :: u).take 2 == [x, x]) = false := by
    simp [(ne_operator hc x hx).symm]
  have hstar : ((c :: u).take 2 == "**".toList) = false := htwo '*' (by decide)
  have hslash : ((c :: u).take 2 == "//".toList) = false := htwo '/' (by decide)
  have hless : ((c :: u).take 2 == "<<".toList) = false := htwo '<' (by decide)
  have hgreater : ((c :: u).take 2 == ">>".toList) = false := htwo '>' (by decide)
  simp only [leadingOperator, hstar, hslash, hless, hgreater, hone]
  rfl

theorem operatorAndValue?_none {c : Char} (hc : isPathChar c = true ∨ c = '(') (u : Text) :
    operatorAndValue? (c :: u) = none := by
  have hcolon := ne_operator hc ':' (by decide)
  have hequals := ne_operator hc '=' (by decide)
  have hassigned : assigned? (c :: u) = none := by
    rw [assigned?.eq_def]
    split
    · rename_i heq
      exact absurd (List.cons.inj heq).1.symm hequals
    · rfl
  simp [operatorAndValue?, hcolon.symm, leadingOperator_none hc, hassigned]

theorem drop_takeWhile (p : Char → Bool) (t : Text) : t.drop (t.takeWhile p).length = t.dropWhile p := by
  induction t with
  | nil => rfl
  | cons c t ih =>
    by_cases hc : p c = true
    · rw [List.takeWhile_cons_of_pos hc, List.dropWhile_cons_of_pos hc]
      exact ih
    · rw [List.takeWhile_cons_of_neg hc, List.dropWhile_cons_of_neg hc]
      rfl

theorem dropWhile_call (c : Call) (p : Char → Bool) (hp : p '(' = false) :
    ∃ x u, (callText c.path c.arguments).dropWhile p = x :: u ∧ (isPathChar x = true ∨ x = '(') := by
  have hchars := c.chars
  rw [callText]
  generalize c.path = path at hchars
  induction path with
  | nil => exact ⟨'(', _, List.dropWhile_cons_of_neg (by simp [hp]), .inr rfl⟩
  | cons y path ih =>
    by_cases hy : p y = true
    · obtain ⟨x, u, hxu, hx⟩ := ih fun z hz => hchars z (by simp [hz])
      exact ⟨x, u, by rw [List.cons_append, List.dropWhile_cons_of_pos hy, hxu], hx⟩
    · exact ⟨y, _, List.dropWhile_cons_of_neg hy, .inl (hchars y (by simp))⟩

/-- A call assigns nothing. -/
theorem assignment?_call (c : Call) : assignment? (callText c.path c.arguments) = none := by
  obtain ⟨x, u, hdropWhile, hx⟩ := dropWhile_call c (fun c => isWord c || c == '.') (by decide)
  have hdrop : (callText c.path c.arguments).drop ((callText c.path c.arguments).takeWhile
      fun c => isWord c || c == '.').length = x :: u := by
    rw [drop_takeWhile, hdropWhile]
  have hindex : x ≠ '[' := by
    rintro rfl
    exact absurd hx (by decide)
  have hblank : isBlank x = false := by
    rcases hx with hx | rfl
    · exact isBlank_of_isPathChar hx
    · decide
  have htarget : leadingTarget (callText c.path c.arguments) =
      (callText c.path c.arguments).takeWhile (fun c => isWord c || c == '.') := by
    simp [leadingTarget, hdrop, hindex]
  have htail : trimStart (x :: u) = x :: u := trimStart_of_head (by simp [hblank])
  simp [assignment?, htarget, hdrop, htail, operatorAndValue?_none hx]

theorem decompose_call (c : Call) :
    decompose (callText c.path c.arguments) = .call (callText c.path c.arguments) := by
  have htrim := (call_isPhrase c).trimmed
  have hword : ∀ w ∈ compoundWords, beginsWithWord (callText c.path c.arguments) w = false := by
    intro w hw
    have hchars : ∀ w ∈ compoundWords, ∀ y ∈ w, isPathChar y = true := by decide
    exact call_not_beginsWithWord c (hchars w hw) fun he => c.unreserved (he ▸ hw)
  have hif := hword "if".toList (by decide)
  have hfor := hword "for".toList (by decide)
  have hwhile := hword "while".toList (by decide)
  have hasync : dropPrefix? "async for ".toList (callText c.path c.arguments) = none :=
    c.dropPrefix?_word (w := "async".toList) (v := "for ".toList) (x := ' ') (by decide) (by decide)
      (by decide)
  have hreturn : dropPrefix? "return ".toList (callText c.path c.arguments) = none :=
    c.dropPrefix?_spaced (w := "return".toList) (by decide)
  have hraise : dropPrefix? "raise ".toList (callText c.path c.arguments) = none :=
    c.dropPrefix?_spaced (w := "raise".toList) (by decide)
  have hawait : dropPrefix? "await ".toList (callText c.path c.arguments) = none :=
    c.dropPrefix?_spaced (w := "await".toList) (by decide)
  have hreturns : (callText c.path c.arguments == "return".toList) = false :=
    beq_eq_false_iff_ne.2 (c.ne_word (by decide))
  have hraises : (callText c.path c.arguments == "raise".toList) = false :=
    beq_eq_false_iff_ne.2 (c.ne_word (by decide))
  simp only [decompose, htrim, hif, hfor, hwhile, hasync, hreturn, hraise, hawait, hreturns, hraises,
    assignment?_call, Option.getD_none, c.looksLikeCall]
  rfl

theorem decompose_assign (f : FieldName) (e : Phrase) :
    decompose (Simple.assign f e).text = (Simple.assign f e).shape := by
  have htrim := (Simple.assign f e).isPhrase.trimmed
  have hassign : assignment? (Simple.assign f e).text = some ("self.".toList ++ f.text, [], ' ' :: e.text) :=
    assignment?_assign f e
  have hif : beginsWithWord (Simple.assign f e).text "if".toList = false := rfl
  have hfor : beginsWithWord (Simple.assign f e).text "for".toList = false := rfl
  have hwhile : beginsWithWord (Simple.assign f e).text "while".toList = false := rfl
  have hasync : dropPrefix? "async for ".toList (Simple.assign f e).text = none := rfl
  have hreturn : dropPrefix? "return ".toList (Simple.assign f e).text = none := rfl
  have hraise : dropPrefix? "raise ".toList (Simple.assign f e).text = none := rfl
  have hreturns : ((Simple.assign f e).text == "return".toList) = false := rfl
  have hraises : ((Simple.assign f e).text == "raise".toList) = false := rfl
  simp only [decompose, htrim, hif, hfor, hwhile, hasync, hreturn, hraise, hreturns, hraises, hassign,
    trim_cons_space e.isPhrase.trimmed]
  rfl

theorem decompose_give (e : Phrase) : decompose (Simple.give e).text = .returning (some e.text) := by
  have htrim := (Simple.give e).isPhrase.trimmed
  have hif : beginsWithWord (Simple.give e).text "if".toList = false := rfl
  have hfor : beginsWithWord (Simple.give e).text "for".toList = false := rfl
  have hwhile : beginsWithWord (Simple.give e).text "while".toList = false := rfl
  have hasync : dropPrefix? "async for ".toList (Simple.give e).text = none := rfl
  have hreturns : ((Simple.give e).text == "return".toList) = false := rfl
  have hreturn : dropPrefix? "return ".toList (Simple.give e).text = some e.text := dropPrefix?_append _ _
  simp only [decompose, htrim, hif, hfor, hwhile, hasync, hreturns, hreturn, e.isPhrase.trimmed]
  rfl

theorem decompose_simple : ∀ s : Simple, decompose s.text = s.shape
  | .assign f e => decompose_assign f e
  | .call c => decompose_call c
  | .finish => rfl
  | .give e => decompose_give e

/-! ## Shapes of trees -/

theorem decompose_branch (n : Nat) (c : Condition) (yes : Suite) :
    decompose ((Tree.branch c yes).indented n) = (Tree.branch c yes).shape (Tree.indented n) := by
  have hif := decompose_if (IsPhrase.isHeader c.isPhrase) (suiteBlocks_ne_nil n yes) (suiteBlocks_isStatement n yes)
    (List.forall_mem_nil _) (by simp) n
  rw [List.append_nil, setIn, ← suite_lines, map_join_blocks] at hif
  exact hif

theorem decompose_fork (n : Nat) (c : Condition) (yes no : Suite) :
    decompose ((Tree.fork c yes no).indented n) = (Tree.fork c yes no).shape (Tree.indented n) := by
  have hafter : ∀ l ∈ "else:".toList :: setIn n (suiteBlocks n no), GoesOn l := by
    intro l hl
    rcases List.mem_cons.1 hl with rfl | hl
    · exact goesOn_else
    · exact goesOn_setIn (suiteBlocks_isStatement n no) n l hl
  have hif := decompose_if (IsPhrase.isHeader c.isPhrase) (suiteBlocks_ne_nil n yes) (suiteBlocks_isStatement n yes)
    hafter (fun l hl => Option.some.inj hl ▸ (by decide)) n
  rw [otherwiseOf_else (suiteBlocks_ne_nil n no) (suiteBlocks_isStatement n no), setIn, setIn,
    ← suite_lines, ← suite_lines, map_join_blocks, map_join_blocks] at hif
  exact hif

theorem decompose_loop (n : Nat) (w : LoopWord) (header : Phrase) (body : Suite) :
    decompose ((Tree.loop w header body).indented n) = (Tree.loop w header body).shape (Tree.indented n) := by
  have hloop := decompose_loopWord w (IsPhrase.isHeader header.isPhrase) (suiteBlocks_ne_nil n body)
    (suiteBlocks_isStatement n body) n
  rw [setIn, ← suite_lines, map_join_blocks] at hloop
  exact hloop

/-- **A printed statement has the shape of its tree.** -/
theorem decompose_indented (n : Nat) (s : Tree) : decompose (s.indented n) = s.shape (Tree.indented n) := by
  cases s with
  | simple s =>
    rw [Tree.indented, Tree.lines, join_singleton]
    exact decompose_simple s
  | branch c yes => exact decompose_branch n c yes
  | fork c yes no => exact decompose_fork n c yes no
  | loop w header body => exact decompose_loop n w header body

theorem ownField?_self (f : FieldName) : ownField? ("self.".toList ++ f.text) = some f.text := by
  have hdrop : dropPrefix? "self.".toList ("self.".toList ++ f.text) = some f.text := dropPrefix?_append _ _
  simp only [ownField?, hdrop, Option.bind_eq_bind, Option.bind_some, f.all_name]
  rfl

end Concord.Statement.Indented
