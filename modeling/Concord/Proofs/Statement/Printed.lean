/-
Printed statements read back. A conditional has as many clauses as it likes, suites are
indented, and the lines of a tree are those of one statement (`Stmt.isStatement`). So the
shape of a printed tree shows its parts, each as the text of the tree it was printed from,
and a block gives back the texts of its trees (`decompose_printed`).
-/
import Concord.Proofs.Statement.Compound

namespace Concord.Statement.Indented

open Text Code

/-! ## Statements without a suite -/

/-- The word that a text begins with. -/
def firstWord (t : Text) : Text := t.takeWhile isWord

/-- The words that no statement without a suite begins with. -/
def leadWords : List Text :=
  ["if".toList, "for".toList, "while".toList, "elif".toList, "else".toList, "except".toList,
    "finally".toList, "pass".toList, "async".toList]

/-- A statement of one line that has no suite. -/
structure IsPlainLine (t : Text) : Prop where
  nonempty : t ≠ []
  trimmed : trim t = t
  oneLine : '\n' ∉ t
  closed : Closed t
  code : t.head? ≠ some '#'
  unescaped : t.getLast? ≠ some '\\'
  word : firstWord t ∉ leadWords

/-- A word ends before a character that belongs to none. -/
theorem firstWord_append {w u : Text} (hw : ∀ c ∈ w, isWord c = true)
    (hu : ∀ c, u.head? = some c → isWord c = false) : firstWord (w ++ u) = w :=
  (span_append hw hu).1

theorem leadWords_isWord : ∀ w ∈ leadWords, ∀ c ∈ w, isWord c = true := by decide

theorem IsPlainLine.not_beginsWithWord {t w : Text} (h : IsPlainLine t) (hw : w ∈ leadWords) :
    beginsWithWord t w = false := by
  have hfirst : ∀ u, t = w ++ u → (∀ c, u.head? = some c → isWord c = false) → False := by
    rintro u rfl hu
    exact h.word (by rwa [firstWord_append (leadWords_isWord w hw) hu])
  rw [beginsWithWord]
  split
  · rename_i hdrop
    exact (hfirst [] (dropPrefix?_eq_some_iff.1 hdrop) (by simp)).elim
  · rename_i c u hdrop
    rw [← Bool.not_eq_true]
    intro hc
    refine hfirst (c :: u) (dropPrefix?_eq_some_iff.1 hdrop) fun x hx => ?_
    rw [← Option.some.inj hx]
    simp only [Bool.or_eq_true, beq_iff_eq] at hc
    rcases hc with ((rfl | rfl) | rfl) | rfl <;> decide
  · rfl

theorem IsPlainLine.isStatement {t : Text} (h : IsPlainLine t) : IsStatement [t] where
  lines l hl := List.mem_singleton.1 hl ▸
    isCodeLine_of_trimmed h.nonempty h.trimmed h.oneLine h.closed h.unescaped
  begins := by
    refine ⟨t, [], rfl, ⟨?_, ?_, by rw [h.trimmed]; exact h.code⟩, by simp⟩
    · obtain ⟨c, u, rfl⟩ := List.exists_cons_of_ne_nil h.nonempty
      exact (trim_eq_self_iff.1 h.trimmed).1 c rfl
    · have hlead : ∀ w ∈ continuations, w ∈ leadWords := by decide
      rw [h.trimmed, List.any_eq_false]
      intro w hw
      rw [h.not_beginsWithWord (hlead w hw)]
      exact Bool.false_ne_true
  notPass := by
    rw [join_singleton]
    rintro rfl
    exact h.word (by decide)

theorem IsPlainLine.isFlat {t : Text} (h : IsPlainLine t) : IsFlat (decompose t) := by
  refine decompose_flat h.trimmed (fun w => h.not_beginsWithWord ?_) ?_
  · rcases w with _ | (_ | _) <;> decide
  · have hlead : "async".toList ∈ leadWords := by decide
    rw [dropPrefix?_eq_none_iff, ← Bool.not_eq_true]
    intro hasync
    obtain ⟨u, rfl⟩ := startsWith_iff.1 hasync
    have hfirst : firstWord ("async".toList ++ (" for ".toList ++ u)) = "async".toList :=
      firstWord_append (leadWords_isWord _ hlead) fun c hc => Option.some.inj hc ▸ (by decide)
    exact h.word (hfirst ▸ hlead)

/-! ## Trees -/

structure PlainLine where
  text : Text
  isPlain : IsPlainLine text

/-- A condition or the header of a loop. -/
structure Heading where
  text : Text
  isHeader : IsHeader text

mutual

/-- A statement with all that stands inside it. -/
inductive Stmt where
  | plain (s : PlainLine)
  | choice (c : Choice)
  | loop (w : LoopWord) (header : Heading) (body : Stmts)

/-- A conditional: what stands under its condition, and what else there is. -/
inductive Choice where
  | mk (condition : Heading) (yes : Stmts) (other : Other)

/-- What follows the first suite of a conditional. -/
inductive Other where
  | nothing
  | elif (c : Choice)
  | otherwise (no : Stmts)

/-- One statement or more. -/
inductive Stmts where
  | last (s : Stmt)
  | more (s : Stmt) (rest : Stmts)

end

def Stmts.toList : Stmts → List Stmt
  | .last s => [s]
  | .more s rest => s :: rest.toList

mutual

/-- The lines of a statement whose suites are indented by `n + 1` spaces. -/
def Stmt.lines (n : Nat) : Stmt → List Text
  | .plain s => [s.text]
  | .choice c => c.lines n "if".toList
  | .loop w header body => colonLine w.text header.text :: (body.lines n).map (indent (n + 1))

/-- The lines of a conditional that `word` begins. -/
def Choice.lines (n : Nat) (word : Text) : Choice → List Text
  | .mk c yes other => colonLine word c.text :: ((yes.lines n).map (indent (n + 1)) ++ other.lines n)

def Other.lines (n : Nat) : Other → List Text
  | .nothing => []
  | .elif c => c.lines n "elif".toList
  | .otherwise no => "else:".toList :: (no.lines n).map (indent (n + 1))

def Stmts.lines (n : Nat) : Stmts → List Text
  | .last s => s.lines n
  | .more s rest => s.lines n ++ rest.lines n

end

def Stmt.text (n : Nat) (s : Stmt) : Text := join ['\n'] (s.lines n)

def Stmts.texts (n : Nat) (b : Stmts) : List Text := b.toList.map (Stmt.text n)

/-- The statements of the other branch; a further condition is one conditional. -/
def Other.texts? (n : Nat) : Other → Option (List Text)
  | .nothing => none
  | .elif c => some [(Stmt.choice c).text n]
  | .otherwise no => some (no.texts n)

/-- Whether a shape shows the condition or header of a statement and the texts of all that stands
directly inside it. -/
def Stmt.ShownBy (n : Nat) : Stmt → Shape → Prop
  | .plain _, shape => IsFlat shape
  | .choice (.mk c yes other), shape => shape = .conditional c.text (yes.texts n) (other.texts? n)
  | .loop _ header body, shape => shape = .loop header.text (body.texts n)

/-! ## Lines of trees -/

mutual

/-- **The lines of a tree are those of one statement.** -/
theorem Stmt.isStatement (n : Nat) : ∀ s : Stmt, IsStatement (s.lines n)
  | .plain s => s.isPlain.isStatement
  -- every line after the first is set in or begins a further clause, so none begins a statement
  | .choice (.mk c yes other) => isStatement_colonLine .choice c.isHeader fun l hl =>
    (List.mem_append.1 hl).elim (yes.goesOn n l) (other.goesOn n l)
  | .loop w header body => isStatement_colonLine (.loop w) header.isHeader (body.goesOn n)

theorem Choice.goesOn (n : Nat) : ∀ c : Choice, ∀ l ∈ c.lines n "elif".toList, GoesOn l
  | .mk c yes other, l, hl => by
    rw [Choice.lines, List.mem_cons, List.mem_append] at hl
    rcases hl with rfl | hl | hl
    · exact goesOn_elif c.isHeader
    · exact yes.goesOn n l hl
    · exact other.goesOn n l hl

theorem Other.goesOn (n : Nat) : ∀ o : Other, ∀ l ∈ o.lines n, GoesOn l
  | .elif c, l, hl => c.goesOn n l hl
  | .otherwise no, l, hl => by
    rw [Other.lines, List.mem_cons] at hl
    rcases hl with rfl | hl
    · exact goesOn_else
    · exact no.goesOn n l hl

theorem Stmts.goesOn (n : Nat) : ∀ b : Stmts, ∀ l ∈ (b.lines n).map (indent (n + 1)), GoesOn l
  | .last s => (s.isStatement n).goesOn n
  | .more s rest => by
    intro l hl
    rw [Stmts.lines, List.map_append, List.mem_append] at hl
    exact hl.elim ((s.isStatement n).goesOn n l) (rest.goesOn n l)

end

/-- The lines of each statement of a suite. -/
def Stmts.blocks (n : Nat) (b : Stmts) : List (List Text) := b.toList.map (Stmt.lines n)

theorem Stmts.lines_eq (n : Nat) (b : Stmts) : b.lines n = (b.blocks n).flatten := by
  cases b with
  | last s => simp [Stmts.lines, Stmts.blocks, Stmts.toList]
  | more s rest => simp [Stmts.lines, rest.lines_eq n, Stmts.blocks, Stmts.toList]

theorem Stmts.blocks_ne_nil (n : Nat) (b : Stmts) : b.blocks n ≠ [] := by
  cases b <;> simp [Stmts.blocks, Stmts.toList]

theorem isStatement_blocks (n : Nat) (ss : List Stmt) : ∀ b ∈ ss.map (Stmt.lines n), IsStatement b := by
  intro b hb
  obtain ⟨s, -, rfl⟩ := List.mem_map.1 hb
  exact s.isStatement n

theorem Stmts.map_join_blocks (n : Nat) (b : Stmts) : (b.blocks n).map (join ['\n']) = b.texts n := by
  rw [Stmts.blocks, List.map_map]
  rfl

/-! ## Trees read back -/

theorem Other.flush (n : Nat) (o : Other) : ∀ l, (o.lines n).head? = some l → startsBlank l = false := by
  intro l hl
  cases o with
  | nothing => cases hl
  | elif c =>
    obtain ⟨c, yes, other⟩ := c
    exact Option.some.inj hl ▸ rfl
  | otherwise no => exact Option.some.inj hl ▸ rfl

/-- What follows the first suite is read as the other branch. -/
theorem Other.otherwiseOf_lines (n : Nat) (o : Other) :
    otherwiseOf (stripLeading '\n' (join ['\n'] (o.lines n))) = o.texts? n := by
  cases o with
  | nothing => rfl
  | elif c =>
    -- printed as a further clause and as a statement, a conditional differs in its first word only
    obtain ⟨c, yes, other⟩ := c
    exact otherwiseOf_elif _ _
  | otherwise no =>
    have helse := otherwiseOf_else (no.blocks_ne_nil n) (isStatement_blocks n no.toList) n
    rw [setIn, ← no.lines_eq, no.map_join_blocks] at helse
    exact helse

/-- The shape of a printed tree shows its parts. -/
theorem Stmt.shownBy_decompose (n : Nat) (s : Stmt) : s.ShownBy n (decompose (s.text n)) := by
  cases s with
  | plain s =>
    rw [Stmt.text, Stmt.lines, join_singleton]
    exact s.isPlain.isFlat
  | choice c =>
    obtain ⟨c, yes, other⟩ := c
    have hif := decompose_if c.isHeader (yes.blocks_ne_nil n) (isStatement_blocks n yes.toList)
      (other.goesOn n) (other.flush n) n
    rw [other.otherwiseOf_lines, setIn, ← yes.lines_eq, yes.map_join_blocks] at hif
    exact hif
  | loop w header body =>
    have hloop := decompose_loopWord w header.isHeader (body.blocks_ne_nil n) (isStatement_blocks n body.toList) n
    rw [setIn, ← body.lines_eq, body.map_join_blocks] at hloop
    exact hloop

/-- A block gives back the texts of its trees, however far it is set in. -/
theorem splitBlock_trees (n : Nat) (ss : List Stmt) (m : Nat) :
    splitBlock (join ['\n'] ((ss.flatMap (Stmt.lines n)).map (indent m))) = ss.map (Stmt.text n) := by
  by_cases hne : ss = []
  · rw [hne, List.flatMap_nil, List.map_nil, List.map_nil]
    decide
  · have hsplit := splitBlock_statements (by simpa using hne) (isStatement_blocks n ss) m
    rw [List.flatMap_def, hsplit, List.map_map]
    rfl

/-- **Reading what was printed gives back its structure.** The shape of a printed tree is the conditional
or the loop with its condition or header and the texts of the trees inside it, in their order; a block of
printed trees, at any indentation, is split into their texts. -/
theorem decompose_printed (n : Nat) : (∀ s : Stmt, s.ShownBy n (decompose (s.text n))) ∧
    ∀ (ss : List Stmt) (m : Nat),
      splitBlock (join ['\n'] ((ss.flatMap (Stmt.lines n)).map (indent m))) = ss.map (Stmt.text n) :=
  ⟨Stmt.shownBy_decompose n, splitBlock_trees n⟩

example : decompose "if k := f(a):\n  g(k)\nelif a[1:]:\n  h()".toList =
    .conditional "k := f(a)".toList ["g(k)".toList] (some ["if a[1:]:\n  h()".toList]) := by decide

end Concord.Statement.Indented
