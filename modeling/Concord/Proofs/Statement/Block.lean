/-
Suites in braces. A printed suite is closed, no line of it is taken for a comment, and
its statements end where semicolons and closing braces say so: it splits into the texts
of its statements (`splitBlock_suite`).
-/
import Concord.Proofs.Statement.Gather
import Concord.Proofs.Statement.Simple

namespace Concord.Statement.Braced

open Text Code

/-! ## Closed texts -/

theorem newline_blank (m depth : Nat) : ∀ c ∈ newline m depth, isBlank c = true := by
  intro c hc
  rcases List.mem_cons.1 hc with rfl | hc
  · decide
  · rw [List.eq_of_mem_replicate hc]
    decide

theorem closed_newline (m depth : Nat) : Closed (newline m depth) := closed_of_blank (newline_blank m depth)

/-- The words that begin a statement with a suite. -/
def headWords : List Text := ["if".toList, "while".toList, "for".toList]

theorem LoopWord.mem_headWords (w : LoopWord) : w.text ∈ headWords := by cases w <;> decide

theorem headWord_blockWord : ∀ word ∈ headWords, word ∈ blockWords := by decide

variable {word header suite : Text}

theorem closed_opening (hword : word ∈ headWords) (h : Closed header) : Closed (opening word header) :=
  closed_word (headWord_blockWord word hword) (h.append (by decide : Closed [' ']) (.inr (by decide)))

theorem getLast?_opening : (opening word header).getLast? = some ' ' :=
  getLast?_append_some (getLast?_append_some (a := ' ' :: header) rfl)

theorem closed_inner (h : Closed suite) (m depth : Nat) : Closed (suite ++ newline m depth) :=
  h.append (closed_newline m depth) (.inr (by simp [newline]))

theorem closed_block (h : Closed suite) (m depth : Nat) : Closed (block m depth suite) :=
  (closed_inner h m depth).group rfl rfl

theorem closed_statement (hword : word ∈ headWords) (hheader : Closed header) (hsuite : Closed suite)
    (m depth : Nat) : Closed (opening word header ++ block m depth suite) :=
  (closed_opening hword hheader).append (closed_block hsuite m depth)
    (.inl (by rw [getLast?_opening]; decide))

mutual

/-- Literals and brackets of a printed statement match. -/
theorem closed_tree (m depth : Nat) : ∀ s : Tree, Closed (s.braced m depth)
  | .simple s => s.isPhrase.closed.append (by decide : Closed [';']) (.inr (by decide))
  | .branch c yes => closed_statement (by decide) c.isPhrase.closed (closed_suite m depth yes) m depth
  | .fork c yes no => by
    have helse : Closed (" else ".toList ++ block m depth (no.braced m depth)) :=
      (closed_of_plain (by decide)).append (closed_block (closed_suite m depth no) m depth) (.inl (by decide))
    have hyes : Closed (opening "if".toList c.text ++ block m depth (yes.braced m depth)) :=
      closed_statement (by decide) c.isPhrase.closed (closed_suite m depth yes) m depth
    rw [Tree.braced, ← List.append_assoc]
    exact hyes.append helse (.inr (by simp))
  | .loop w header body =>
    closed_statement (LoopWord.mem_headWords w) header.isPhrase.closed (closed_suite m depth body) m depth

theorem closed_suite (m depth : Nat) : ∀ b : Suite, Closed (b.braced m depth)
  | .last s => (closed_newline m (depth + 1)).append (closed_tree m (depth + 1) s)
      (.inl (fresh_of_blank (newline_blank m (depth + 1))))
  | .more s rest => by
    have hrest : (rest.braced m depth).head? ≠ some '\'' := by cases rest <;> simp [Suite.braced, newline]
    exact (closed_newline m (depth + 1)).append
      ((closed_tree m (depth + 1) s).append (closed_suite m depth rest) (.inr hrest))
      (.inl (fresh_of_blank (newline_blank m (depth + 1))))

end

/-! ## Lines of a block -/

theorem tidy_newline (m depth : Nat) : Tidy (newline m depth) := by
  refine tidy_of_blank (newline_blank m depth) fun hc => ?_
  rcases List.mem_cons.1 hc with hc | hc
  · exact absurd hc (by decide)
  · exact absurd (List.eq_of_mem_replicate hc) (by decide)

theorem newline_notSlash (m depth : Nat) : (newline m depth).getLast? ≠ some '/' :=
  last_ne_of_blank (newline_blank m depth) (by decide)

theorem tidy_block (h : Tidy suite) (m depth : Nat) : Tidy (block m depth suite) :=
  Tidy.append (a := ['{']) (by decide)
    ((h.append (tidy_newline m depth) (.inr (by simp [newline]))).append (by decide) (.inr (by decide)))
    (.inl (by decide))

theorem tidy_opening (hword : word ∈ headWords) (hheader : '\n' ∉ header) : Tidy (opening word header) := by
  have hline : splitAt '\n' (header ++ [' ']) = [header ++ [' ']] := splitAt_of_not_mem (by simp [hheader])
  refine tidy_word (headWord_blockWord word hword) (by simp [hline]) fun l hl => ?_
  rw [hline, List.mem_singleton] at hl
  rw [hl, getLast?_append_some rfl]
  decide

theorem tidy_statement (hword : word ∈ headWords) (hheader : '\n' ∉ header) (hsuite : Tidy suite)
    (m depth : Nat) : Tidy (opening word header ++ block m depth suite) :=
  (tidy_opening hword hheader).append (tidy_block hsuite m depth) (.inr (by simp [block]))

theorem tidy_simple (s : Simple) : Tidy s.text := by
  obtain ⟨c, hhead, hpath⟩ := s.head
  obtain ⟨u, hu⟩ := List.head?_eq_some_iff.1 hhead
  have hslash : ('/' == c) = false := by
    rw [beq_eq_false_iff_ne]
    rintro rfl
    exact absurd hpath (by decide)
  refine tidy_of_line s.isPhrase.oneLine ⟨?_, fun hlast => ?_⟩
  · rw [trimStart_of_trimmed s.isPhrase.trimmed, hu]
    show startsWith (c :: u) ('/' :: ['/']) = false
    rw [startsWith_cons, hslash, Bool.false_and]
  · exact absurd ((trim_eq_self_iff.1 s.isPhrase.trimmed).2 _ hlast) (by decide)

mutual

/-- No line of a printed statement is dropped as a comment. -/
theorem tidy_tree (m depth : Nat) : ∀ s : Tree, Tidy (s.braced m depth)
  | .simple s => (tidy_simple s).append (by decide) (.inr (by decide))
  | .branch c yes => tidy_statement (by decide) c.isPhrase.oneLine (tidy_suite m depth yes) m depth
  | .fork c yes no => by
    have helse : Tidy (" else ".toList ++ block m depth (no.braced m depth)) :=
      Tidy.append (by decide) (tidy_block (tidy_suite m depth no) m depth) (.inl (by decide))
    have hyes : Tidy (opening "if".toList c.text ++ block m depth (yes.braced m depth)) :=
      tidy_statement (by decide) c.isPhrase.oneLine (tidy_suite m depth yes) m depth
    rw [Tree.braced, ← List.append_assoc]
    exact hyes.append helse (.inr (by simp))
  | .loop w header body =>
    tidy_statement (LoopWord.mem_headWords w) header.isPhrase.oneLine (tidy_suite m depth body) m depth

theorem tidy_suite (m depth : Nat) : ∀ b : Suite, Tidy (b.braced m depth)
  | .last s => (tidy_newline m (depth + 1)).append (tidy_tree m (depth + 1) s) (.inl (newline_notSlash m (depth + 1)))
  | .more s rest => by
    have hrest : (rest.braced m depth).head? ≠ some '/' := by cases rest <;> simp [Suite.braced, newline]
    exact (tidy_newline m (depth + 1)).append
      ((tidy_tree m (depth + 1) s).append (tidy_suite m depth rest) (.inr hrest)) (.inl (newline_notSlash m (depth + 1)))

end

/-! ## Statements of a block -/

/-- A statement without the semicolon that ends it. -/
def bared (m depth : Nat) : Tree → Text
  | .simple s => s.text
  | s => s.braced m depth

theorem topAll_ends {t : Text} (h : TopAll isInline t) :
    TopAll endsNothing t :=
  h.imp fun c hc => by
    simp only [isInline, endsNothing, Bool.and_eq_true] at hc ⊢
    exact ⟨hc.1.1.2, hc.2⟩

/-- A header and its block are one statement. -/
theorem runsTo_statement (hword : word ∈ headWords) (hheader : IsPhrase header) (hsuite : Closed suite)
    (m depth : Nat) : RunsTo ['}'] (opening word header ++ block m depth suite) := by
  have htop : TopAll endsNothing (opening word header) := topAll_word (headWord_blockWord word hword)
    ((topAll_ends hheader.top).append (by decide) hheader.closed (.inr (by decide)))
  exact (runsTo_closed (closed_opening hword hheader.closed) htop).append (by rw [getLast?_opening]; decide)
    (runsTo_block (closed_inner hsuite m depth))

/-- So is a conditional with the block of its `else`. -/
theorem runsTo_fork (hheader : IsPhrase header) (hsuite : Closed suite) {other : Text} (hother : Closed other)
    (m depth : Nat) : RunsTo ['}'] (opening "if".toList header ++
      (block m depth suite ++ (" else ".toList ++ block m depth other))) := by
  have helse : RunsTo ['}'] (" else ".toList ++ block m depth other) :=
    (runsTo_closed (by decide) (by decide)).append (by decide) (runsTo_block (closed_inner hother m depth))
  rw [← List.append_assoc]
  exact (runsTo_statement (by decide) hheader hsuite m depth).goesOn rfl helse

theorem getLast?_block (m depth : Nat) (suite : Text) : (block m depth suite).getLast? = some '}' :=
  getLast?_append_some (a := '{' :: (suite ++ newline m depth)) rfl

theorem opening_append (word header t : Text) :
    opening word header ++ t = word ++ ' ' :: (header ++ ' ' :: t) := by
  simp [opening]

/-- Where no `else` follows, a statement with a suite ends with its last block. -/
theorem gather_statement (hword : word ∈ headWords) {blocks : Text}
    (hruns : RunsTo ['}'] (opening word header ++ blocks)) (hlast : blocks.getLast? = some '}') {gap : Text}
    (hgap : ∀ c ∈ gap, isBlank c = true) {tail : Text}
    (helse : startsWith (trimStart tail) "else".toList = false) :
    gather gap.reverse ((opening word header ++ blocks) ++ tail)
        (scan ((opening word header ++ blocks) ++ tail)) =
      (opening word header ++ blocks) :: gather [] tail (scan tail) := by
  have hblock := headWord_blockWord word hword
  have hend : (' ' :: (header ++ ' ' :: blocks)).getLast? = some '}' :=
    getLast?_append_some (a := ' ' :: header) (getLast?_append_some (a := [' ']) hlast)
  rw [opening_append] at hruns ⊢
  exact hruns.gather_eq (startsBlock_word hblock rfl _) (trim_word hblock (getLast?_append_some hend)) hgap helse

theorem gather_tree (m depth : Nat) {gap : Text} (hgap : ∀ c ∈ gap, isBlank c = true) {tail : Text}
    (helse : startsWith (trimStart tail) "else".toList = false) : ∀ s : Tree,
    gather gap.reverse (s.braced m depth ++ tail) (scan (s.braced m depth ++ tail)) =
      bared m depth s :: gather [] tail (scan tail)
  | .simple s => by
    rw [Tree.braced, List.append_assoc]
    exact (runsTo_closed s.isPhrase.closed (topAll_ends s.isPhrase.top)).gather_semicolon s.isPhrase.trimmed
      hgap tail
  | .branch c yes => gather_statement (by decide)
      (runsTo_statement (by decide) c.isPhrase (closed_suite m depth yes) m depth) (getLast?_block ..) hgap helse
  | .fork c yes no => gather_statement (by decide)
      (runsTo_fork c.isPhrase (closed_suite m depth yes) (closed_suite m depth no) m depth)
      (getLast?_append_some (getLast?_append_some (getLast?_block ..))) hgap helse
  | .loop w header body => gather_statement (LoopWord.mem_headWords w)
      (runsTo_statement (LoopWord.mem_headWords w) header.isPhrase (closed_suite m depth body) m depth)
      (getLast?_block ..) hgap helse

theorem call_notElse (c : Call) (t : Text) :
    startsWith (callText c.path c.arguments ++ t) "else".toList = false := by
  rw [callText, List.append_assoc, List.cons_append, startsWith_append_cons (by decide)]
  exact c.notElse

/-- No statement begins with `else`. -/
theorem tree_notElse (m depth : Nat) (t : Text) : ∀ s : Tree,
    startsWith (s.braced m depth ++ t) "else".toList = false
  | .simple (.assign _ _) => rfl
  | .simple (.call c) => by
    rw [Tree.braced, List.append_assoc]
    exact call_notElse c _
  | .simple .finish => rfl
  | .simple (.give _) => rfl
  | .branch _ _ => rfl
  | .fork _ _ _ => rfl
  | .loop w _ _ => by cases w <;> rfl

theorem tree_head (m depth : Nat) : ∀ s : Tree, ∃ c, (s.braced m depth).head? = some c ∧ isBlank c = false
  | .simple s => by
    obtain ⟨c, hc, hpath⟩ := s.head
    exact ⟨c, head?_append_some hc, isBlank_of_isPathChar hpath⟩
  | .branch _ _ => ⟨'i', rfl, by decide⟩
  | .fork _ _ _ => ⟨'i', rfl, by decide⟩
  | .loop .whilst _ _ => ⟨'w', rfl, by decide⟩
  | .loop .each _ _ => ⟨'f', rfl, by decide⟩

theorem newline_tree_notElse (m depth : Nat) (s : Tree) (t : Text) :
    startsWith (trimStart (newline m (depth + 1) ++ (s.braced m (depth + 1) ++ t)))
      "else".toList = false := by
  obtain ⟨c, hc, hblank⟩ := tree_head m (depth + 1) s
  have htrim : trimStart (s.braced m (depth + 1) ++ t) = s.braced m (depth + 1) ++ t :=
    trimStart_of_head fun x hx => by
      rw [head?_append_some hc, Option.some.injEq] at hx
      exact hx ▸ hblank
  rw [trimStart_append_blank (newline_blank m (depth + 1)), htrim]
  exact tree_notElse m (depth + 1) t s

theorem suite_notElse (m depth : Nat) (t : Text) : ∀ b : Suite,
    startsWith (trimStart (b.braced m depth ++ t)) "else".toList = false
  | .last s => by
    rw [Suite.braced, List.append_assoc]
    exact newline_tree_notElse m depth s t
  | .more s rest => by
    rw [Suite.braced, List.append_assoc, List.append_assoc]
    exact newline_tree_notElse m depth s _

theorem gather_suite (m depth : Nat) {gap : Text} (hgap : ∀ c ∈ gap, isBlank c = true) : ∀ b : Suite,
    gather [] (b.braced m depth ++ gap) (scan (b.braced m depth ++ gap)) =
      b.trees.map (bared m (depth + 1)) ++ [[]]
  | .last s => by
    rw [Suite.braced, List.append_assoc, gather_gap (newline_blank m (depth + 1)),
      gather_tree m (depth + 1) (newline_blank m (depth + 1)) (blank_notElse hgap), gather_blank hgap]
    rfl
  | .more s rest => by
    rw [Suite.braced, List.append_assoc, List.append_assoc, gather_gap (newline_blank m (depth + 1)),
      gather_tree m (depth + 1) (newline_blank m (depth + 1)) (suite_notElse m depth gap rest),
      gather_suite m depth hgap rest]
    rfl

theorem bared_ne_nil (m depth : Nat) : ∀ s : Tree, bared m depth s ≠ []
  | .simple s => s.isPhrase.nonempty
  | .branch _ _ => by simp [bared, Tree.braced, opening]
  | .fork _ _ _ => by simp [bared, Tree.braced, opening]
  | .loop _ _ _ => by simp [bared, Tree.braced, opening]

/-- **The statements of a printed suite** are those of its tree. -/
theorem splitBlock_suite (m depth : Nat) (b : Suite) :
    splitBlock (b.braced m depth ++ newline m depth) = b.trees.map (bared m (depth + 1)) := by
  have htidy : Tidy (b.braced m depth ++ newline m depth) :=
    (tidy_suite m depth b).append (tidy_newline m depth) (.inr (by simp [newline]))
  have hkeep : (b.trees.map (bared m (depth + 1))).filter (fun s => !s.isEmpty) =
      b.trees.map (bared m (depth + 1)) := by
    rw [List.filter_eq_self]
    intro t ht
    obtain ⟨s, -, rfl⟩ := List.mem_map.1 ht
    simpa using bared_ne_nil m (depth + 1) s
  rw [splitBlock_tidy htidy, gather_suite m depth (newline_blank m depth), List.filter_append, hkeep]
  simp

end Concord.Statement.Braced
