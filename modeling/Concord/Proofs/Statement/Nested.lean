/-
Nested statements in braces, with any blanks between them. A condition or a header may go
over several lines; a tree whose headings keep to what a block is split by reads back: its
shape shows its parts, each as the text of the tree it was printed from, and a block gives
back the texts of its trees (`decompose_written`).
-/
import Concord.Proofs.Statement.Braced
import Concord.Proofs.Statement.Compound

namespace Concord.Statement.Braced

open Text Code
open Indented (IsFlat)

/-! ## Statements without a suite -/

/-- A statement of one line that has no suite, without its semicolon. -/
structure IsPlainText (t : Text) : Prop where
  nonempty : t ≠ []
  trimmed : trim t = t
  oneLine : '\n' ∉ t
  closed : Closed t
  top : TopAll (· != ';') t
  notBlock : t.head? ≠ some '{'
  notComment : startsWith t "//".toList = false
  notElse : startsWith t "else".toList = false
  word : ∀ w ∈ blockWords, beginsWithWord t w = false

instance (t : Text) : Decidable (IsPlainText t) :=
  decidable_of_iff
    (t ≠ [] ∧ trim t = t ∧ '\n' ∉ t ∧ Closed t ∧ TopAll (· != ';') t ∧ t.head? ≠ some '{' ∧
      startsWith t "//".toList = false ∧ startsWith t "else".toList = false ∧
      ∀ w ∈ blockWords, beginsWithWord t w = false)
    ⟨fun ⟨h1, h2, h3, h4, h5, h6, h7, h8, h9⟩ => ⟨h1, h2, h3, h4, h5, h6, h7, h8, h9⟩,
      fun h => ⟨h.1, h.2, h.3, h.4, h.5, h.6, h.7, h.8, h.9⟩⟩

theorem IsPlainText.trimStart_eq {t : Text} (h : IsPlainText t) : trimStart t = t :=
  trimStart_of_trimmed h.trimmed

theorem IsPlainText.startsBlock_eq {t : Text} (h : IsPlainText t) : startsBlock t = false := by
  rw [← Bool.not_eq_true, startsBlock_iff, h.trimStart_eq]
  rintro (hbrace | ⟨w, hw, hbegins⟩)
  · exact h.notBlock hbrace
  · rw [h.word w hw] at hbegins
    cases hbegins

theorem IsPlainText.tidy {t : Text} (h : IsPlainText t) : Tidy t :=
  tidy_of_line h.oneLine ⟨by rw [h.trimStart_eq]; exact h.notComment, fun hlast =>
    absurd ((trim_eq_self_iff.1 h.trimmed).2 _ hlast) (by decide)⟩

theorem isFlat_assignment {t : Text} {shape : Shape} (h : assignment? t = some shape) : IsFlat shape := by
  simp only [assignment?, Option.bind_eq_bind, Option.bind_eq_some_iff, Option.bind_none,
    Option.ite_none_left_eq_some, Option.pure_def, Option.some.injEq] at h
  obtain ⟨place, -, -, rfl⟩ := h
  exact ⟨by simp, by simp⟩

/-- The words that begin a statement with a suite. -/
def suiteWords : List Text := ["if".toList, "for".toList, "while".toList, "loop".toList]

/-- A statement that none of them begins has no suite. -/
theorem decompose_flat {style : Header} {fragment t : Text} (hbare : bare fragment = t)
    (hword : ∀ w ∈ suiteWords, beginsWithWord t w = false) : IsFlat (decompose style fragment) := by
  have hif := hword "if".toList (by decide)
  have hfor := hword "for".toList (by decide)
  have hwhile := hword "while".toList (by decide)
  have hloop := hword "loop".toList (by decide)
  simp only [decompose, hbare, hif, hfor, hwhile, hloop, Bool.false_eq_true, if_false]
  refine .ite ⟨by simp, by simp⟩ ?_
  cases dropPrefix? "return ".toList t with
  | some value => exact ⟨by simp, by simp⟩
  | none =>
    cases dropPrefix? "throw ".toList t with
    | some error => exact ⟨by simp, by simp⟩
    | none =>
      refine .ite ⟨by simp, by simp⟩ ?_
      cases hassign : assignment? t with
      | some shape => exact isFlat_assignment hassign
      | none => exact .ite ⟨by simp, by simp⟩ ⟨by simp, by simp⟩

theorem IsPlainText.isFlat {t : Text} (h : IsPlainText t) : IsFlat (decompose .bare (t ++ [';'])) :=
  decompose_flat (bare_semicolon h.nonempty h.trimmed (h.closed.last_ne h.top (by decide) (by decide)))
    fun w hw => h.word w ((by decide : ∀ w ∈ suiteWords, w ∈ blockWords) w hw)

/-! ## Headings -/

structure Heading where
  text : Text
  isHeading : IsHeading text

/-- The condition of a conditional: no group as a whole. -/
structure Cond extends Heading where
  bare : isParenthesised text = false

/-- What a block is split by leaves the heading whole: no line of it but the first, which follows a word,
begins with two slashes, none ends with a carriage return, and no statement ends in it. A brace that closes
at its top level could only match a bracket of another kind. -/
structure Heading.Kept (h : Heading) : Prop where
  lines : ∀ l ∈ (splitAt '\n' h.text).tail, startsWith (trimStart l) "//".toList = false
  feeds : ∀ l ∈ splitAt '\n' h.text, l.getLast? ≠ some '\r'
  top : TopAll endsNothing h.text

instance (h : Heading) : Decidable h.Kept :=
  decidable_of_iff
    ((∀ l ∈ (splitAt '\n' h.text).tail, startsWith (trimStart l) "//".toList = false) ∧
      (∀ l ∈ splitAt '\n' h.text, l.getLast? ≠ some '\r') ∧ TopAll endsNothing h.text)
    ⟨fun ⟨h1, h2, h3⟩ => ⟨h1, h2, h3⟩, fun h => ⟨h.1, h.2, h.3⟩⟩

/-- A heading, if there is one, with the space before its brace. -/
def spaced : Option Heading → Text
  | some h => h.text ++ [' ']
  | none => []

/-- A word and the heading after it, up to the brace. -/
def lead (word : Text) (heading? : Option Heading) : Text := word ++ ' ' :: spaced heading?

theorem isHeader_spaced (heading? : Option Heading) : Closed (spaced heading?) ∧
    TopAll (· != '{') (spaced heading?) ∧ ∀ c, (spaced heading?).head? = some c → isBlank c = false := by
  cases heading? with
  | none => exact ⟨closed_nil, by simp [spaced, TopAll, scan, scanFrom], by simp [spaced]⟩
  | some h =>
    obtain ⟨hclosed, htop, hstart, -⟩ := h.isHeading.spaced
    exact ⟨hclosed, htop, hstart⟩

theorem getLast?_lead (word : Text) (heading? : Option Heading) : (lead word heading?).getLast? = some ' ' := by
  cases heading? with
  | none => exact getLast?_append_some rfl
  | some h => exact getLast?_append_some (getLast?_append_some (a := ' ' :: h.text) rfl)

theorem fresh_lead (word : Text) (heading? : Option Heading) : Fresh (lead word heading?).getLast? := by
  rw [getLast?_lead]
  decide

variable {w : Text}

theorem closed_lead (hw : w ∈ blockWords) (heading? : Option Heading) : Closed (lead w heading?) :=
  closed_word hw (isHeader_spaced heading?).1

theorem topAll_lead (hw : w ∈ blockWords) {heading? : Option Heading} (hkept : ∀ h ∈ heading?, h.Kept) :
    TopAll endsNothing (lead w heading?) := by
  refine topAll_word hw ?_
  cases heading? with
  | none => exact topAll_of_plain (by simp [spaced])
  | some h => exact (hkept h rfl).top.append (by decide) h.isHeading.closed (.inr (by decide))

theorem tidy_lead (hw : w ∈ blockWords) {heading? : Option Heading} (hkept : ∀ h ∈ heading?, h.Kept) :
    Tidy (lead w heading?) := by
  cases heading? with
  | none => exact tidy_word hw (by decide) (by decide)
  | some h =>
    have htidy := (tidy_word hw (hkept h rfl).lines (hkept h rfl).feeds).append (b := [' ']) (by decide)
      (.inr (by decide))
    rwa [List.append_assoc, List.cons_append] at htidy

/-! ## Trees -/

structure PlainText where
  text : Text
  isPlain : IsPlainText text

inductive LoopHead where
  | whilst (h : Heading)
  | each (h : Heading)
  | forever

def LoopHead.word : LoopHead → Text
  | .whilst _ => "while".toList
  | .each _ => "for".toList
  | .forever => "loop".toList

def LoopHead.heading? : LoopHead → Option Heading
  | .whilst h => some h
  | .each h => some h
  | .forever => none

/-- What a loop goes over, or the condition that it goes on by. -/
def LoopHead.range : LoopHead → Text
  | .whilst h => h.text
  | .each h => h.text
  | .forever => "true".toList

mutual

/-- A statement with all that stands inside it. -/
inductive Stmt where
  | plain (s : PlainText)
  | choice (c : Choice)
  | loop (head : LoopHead) (body : Stmts)

/-- A conditional: what stands under its condition, and what else there is. -/
inductive Choice where
  | mk (condition : Cond) (yes : Stmts) (other : Other)

/-- What follows the first suite of a conditional. -/
inductive Other where
  | nothing
  | elseIf (c : Choice)
  | otherwise (no : Stmts)

/-- Any number of statements, with blanks around them. -/
inductive Stmts where
  | done (gap : Gap)
  | more (gap : Gap) (s : Stmt) (rest : Stmts)

end

mutual

def Stmt.text : Stmt → Text
  | .plain s => s.text ++ [';']
  | .choice c => c.text
  | .loop head body => lead head.word head.heading? ++ braces body.text

def Choice.text : Choice → Text
  | .mk c yes other => lead "if".toList (some c.toHeading) ++ braces yes.text ++ other.text

def Other.text : Other → Text
  | .nothing => []
  | .elseIf c => " else ".toList ++ c.text
  | .otherwise no => " else ".toList ++ braces no.text

def Stmts.text : Stmts → Text
  | .done gap => gap.text
  | .more gap s rest => gap.text ++ (s.text ++ rest.text)

end

/-- A statement without the semicolon that ends it. -/
def Stmt.shown : Stmt → Text
  | .plain s => s.text
  | s => s.text

def Stmts.texts : Stmts → List Text
  | .done _ => []
  | .more _ s rest => s.shown :: rest.texts

mutual

/-- All headings in a statement. -/
def Stmt.headings : Stmt → List Heading
  | .plain _ => []
  | .choice c => c.headings
  | .loop head body => head.heading?.toList ++ body.headings

def Choice.headings : Choice → List Heading
  | .mk c yes other => c.toHeading :: (yes.headings ++ other.headings)

def Other.headings : Other → List Heading
  | .nothing => []
  | .elseIf c => c.headings
  | .otherwise no => no.headings

def Stmts.headings : Stmts → List Heading
  | .done _ => []
  | .more _ s rest => s.headings ++ rest.headings

end

/-- The statements of the other branch; a further condition is one conditional. -/
def Other.texts? : Other → Option (List Text)
  | .nothing => none
  | .elseIf c => some [c.text]
  | .otherwise no => some no.texts

/-- Whether a shape shows the condition or header of a statement and the texts of all that stands
directly inside it. -/
def Stmt.ShownBy : Stmt → Shape → Prop
  | .plain _, shape => IsFlat shape
  | .choice (.mk c yes other), shape => shape = .conditional c.text yes.texts other.texts?
  | .loop head body, shape => shape = .loop head.range body.texts

/-- The headings inside the blocks of a statement. A further conditional stands in none of them. -/
def Stmt.inner : Stmt → List Heading
  | .plain _ => []
  | .choice (.mk _ yes (.otherwise no)) => yes.headings ++ no.headings
  | .choice (.mk _ yes _) => yes.headings
  | .loop _ body => body.headings

theorem forall_headings_mk {c : Cond} {yes : Stmts} {other : Other} :
    (∀ h ∈ (Choice.mk c yes other).headings, h.Kept) ↔
      (∀ h ∈ some c.toHeading, h.Kept) ∧ (∀ h ∈ yes.headings, h.Kept) ∧ ∀ h ∈ other.headings, h.Kept := by
  simp [Choice.headings, or_imp, forall_and]

/-! ## Texts of trees -/

theorem LoopHead.mem_loopWords (head : LoopHead) : head.word ∈ loopWords := by
  cases head with
  | whilst h => exact (by decide : "while".toList ∈ loopWords)
  | each h => exact (by decide : "for".toList ∈ loopWords)
  | forever => exact (by decide : "loop".toList ∈ loopWords)

theorem LoopHead.mem_blockWords (head : LoopHead) : head.word ∈ blockWords :=
  loopWord_blockWord head.word head.mem_loopWords

mutual

theorem Choice.getLast?_text : ∀ c : Choice, c.text.getLast? = some '}'
  | .mk c yes other => by
    have hlast := other.getLast?_text
    have htext : Choice.text (.mk c yes other) =
        (lead "if".toList (some c.toHeading) ++ '{' :: yes.text) ++ ('}' :: other.text) := by
      simp [Choice.text, braces]
    rw [htext, getLast?_append_some hlast]

theorem Other.getLast?_text : ∀ o : Other, ('}' :: o.text).getLast? = some '}'
  | .nothing => rfl
  | .elseIf c => getLast?_append_some (a := '}' :: " else ".toList) c.getLast?_text
  | .otherwise no => getLast?_append_some (a := '}' :: " else ".toList) (getLast?_braces no.text)

end

/-- A statement ends with its semicolon or its brace. -/
theorem Stmt.getLast?_text : ∀ s : Stmt, s.text.getLast? = some ';' ∨ s.text.getLast? = some '}'
  | .plain _ => .inl (getLast?_append_some rfl)
  | .choice c => .inr c.getLast?_text
  | .loop _ body => .inr (getLast?_append_some (getLast?_braces body.text))

theorem Stmt.fresh_text (s : Stmt) : Fresh s.text.getLast? := by
  rcases s.getLast?_text with h | h <;> (rw [h]; decide)

theorem Stmt.notSlash (s : Stmt) : s.text.getLast? ≠ some '/' := by
  rcases s.getLast?_text with h | h <;> (rw [h]; decide)

theorem closed_headed (hw : w ∈ blockWords) (heading? : Option Heading) {suite : Text}
    (hsuite : Closed suite) : Closed (lead w heading? ++ braces suite) :=
  (closed_lead hw heading?).append (hsuite.group rfl rfl) (.inl (fresh_lead w heading?))

mutual

/-- Literals and brackets of a tree match. -/
theorem Stmt.closed : ∀ s : Stmt, Closed s.text
  | .plain s => s.isPlain.closed.append (by decide : Closed [';']) (.inr (by decide))
  | .choice c => c.closed
  | .loop head body => closed_headed head.mem_blockWords head.heading? body.closed

theorem Choice.closed : ∀ c : Choice, Closed c.text
  | .mk c yes other => (closed_headed (by decide) (some c.toHeading) yes.closed).append other.closed
      (.inl (by rw [getLast?_append_some (getLast?_braces yes.text)]; decide))

theorem Other.closed : ∀ o : Other, Closed o.text
  | .nothing => closed_nil
  | .elseIf c => Closed.append (by decide) c.closed (.inl (by decide))
  | .otherwise no => Closed.append (by decide) (no.closed.group rfl rfl) (.inl (by decide))

theorem Stmts.closed : ∀ b : Stmts, Closed b.text
  | .done gap => closed_of_blank gap.blank
  | .more gap s rest => (closed_of_blank gap.blank).append (s.closed.append rest.closed (.inl s.fresh_text))
      (.inl (fresh_of_blank gap.blank))

end

/-! ## Lines of trees -/

theorem tidy_braces {suite : Text} (h : Tidy suite) : Tidy (braces suite) :=
  Tidy.append (a := ['{']) (by decide) (h.append (by decide) (.inr (by decide))) (.inl (by decide))

theorem tidy_headed (hw : w ∈ blockWords) {heading? : Option Heading} (hkept : ∀ h ∈ heading?, h.Kept)
    {suite : Text} (hsuite : Tidy suite) : Tidy (lead w heading? ++ braces suite) :=
  (tidy_lead hw hkept).append (tidy_braces hsuite) (.inr (by simp [braces]))

mutual

/-- No line of a tree is dropped as a comment. -/
theorem Stmt.tidy : ∀ s : Stmt, (∀ h ∈ s.headings, h.Kept) → Tidy s.text
  | .plain s, _ => s.isPlain.tidy.append (by decide) (.inr (by decide))
  | .choice c, hkept => c.tidy hkept
  | .loop head body, hkept => tidy_headed head.mem_blockWords
      (fun h hh => hkept h (List.mem_append_left _ (Option.mem_toList.2 hh)))
      (body.tidy fun h hh => hkept h (List.mem_append_right _ hh))

theorem Choice.tidy : ∀ c : Choice, (∀ h ∈ c.headings, h.Kept) → Tidy c.text
  | .mk c yes other, hkept => by
    obtain ⟨hc, hyes, hother⟩ := forall_headings_mk.1 hkept
    exact (tidy_headed (by decide) hc (yes.tidy hyes)).append (other.tidy hother)
      (.inl (by rw [getLast?_append_some (getLast?_braces yes.text)]; decide))

theorem Other.tidy : ∀ o : Other, (∀ h ∈ o.headings, h.Kept) → Tidy o.text
  | .nothing, _ => by decide
  | .elseIf c, hkept => Tidy.append (by decide) (c.tidy hkept) (.inl (by decide))
  | .otherwise no, hkept => Tidy.append (by decide) (tidy_braces (no.tidy hkept)) (.inl (by decide))

theorem Stmts.tidy : ∀ b : Stmts, (∀ h ∈ b.headings, h.Kept) → Tidy b.text
  | .done gap, _ => tidy_of_blank gap.blank gap.noReturn
  | .more gap s rest, hkept => by
    have hs := s.tidy fun h hh => hkept h (List.mem_append_left _ hh)
    have hrest := rest.tidy fun h hh => hkept h (List.mem_append_right _ hh)
    exact (tidy_of_blank gap.blank gap.noReturn).append (hs.append hrest (.inl s.notSlash))
      (.inl (last_ne_of_blank gap.blank (by decide)))

end

/-! ## Statements of trees -/

theorem runsTo_headed (hw : w ∈ blockWords) {heading? : Option Heading} (hkept : ∀ h ∈ heading?, h.Kept)
    {suite : Text} (hsuite : Closed suite) : RunsTo ['}'] (lead w heading? ++ braces suite) :=
  (runsTo_closed (closed_lead hw heading?) (topAll_lead hw hkept)).append (fresh_lead w heading?)
    (runsTo_block hsuite)

mutual

/-- A conditional goes on with every further branch up to its last brace. -/
theorem Choice.runsTo : ∀ c : Choice, (∀ h ∈ c.headings, h.Kept) → RunsTo ['}'] c.text
  | .mk c yes other, hkept => by
    obtain ⟨hc, -, hother⟩ := forall_headings_mk.1 hkept
    exact other.runsTo hother (runsTo_headed (by decide) hc yes.closed)

theorem Other.runsTo : ∀ o : Other, (∀ h ∈ o.headings, h.Kept) → ∀ {t : Text}, RunsTo ['}'] t →
    RunsTo ['}'] (t ++ o.text)
  | .nothing, _, t, ht => by
    show RunsTo ['}'] (t ++ [])
    rwa [List.append_nil]
  | .elseIf c, hkept, t, ht => ht.goesOn rfl
      ((runsTo_closed (by decide) (by decide)).append (by decide) (c.runsTo hkept))
  | .otherwise no, _, t, ht => ht.goesOn rfl
      ((runsTo_closed (by decide) (by decide)).append (by decide) (runsTo_block no.closed))

end

theorem Choice.exists_text : ∀ c : Choice, ∃ v, c.text = "if".toList ++ ' ' :: v
  | .mk c yes other => ⟨(c.text ++ [' ']) ++ braces yes.text ++ other.text, rfl⟩

theorem exists_headed (w : Text) (heading? : Option Heading) (suite : Text) :
    ∃ v, lead w heading? ++ braces suite = w ++ ' ' :: v :=
  ⟨spaced heading? ++ braces suite, by simp [lead]⟩

/-- Where no `else` follows, what begins with a word ends with its last block. -/
theorem gather_headed (hw : w ∈ blockWords) {t : Text} (ht : ∃ v, t = w ++ ' ' :: v) (hruns : RunsTo ['}'] t)
    (hlast : t.getLast? = some '}') {gap : Text} (hgap : ∀ c ∈ gap, isBlank c = true) {tail : Text}
    (helse : startsWith (trimStart tail) "else".toList = false) :
    gather gap.reverse (t ++ tail) (scan (t ++ tail)) = t :: gather [] tail (scan tail) := by
  obtain ⟨v, rfl⟩ := ht
  exact hruns.gather_eq (startsBlock_word hw rfl v) (trim_word hw hlast) hgap helse

/-- Where no `else` follows, a statement ends where its tree does. -/
theorem Stmt.gather_text (s : Stmt) (hkept : ∀ h ∈ s.headings, h.Kept) {gap : Text}
    (hgap : ∀ c ∈ gap, isBlank c = true) {tail : Text} (helse : startsWith (trimStart tail) "else".toList = false) :
    gather gap.reverse (s.text ++ tail) (scan (s.text ++ tail)) = s.shown :: gather [] tail (scan tail) := by
  cases s with
  | plain s =>
    rw [Stmt.text, List.append_assoc]
    exact gather_plain s.isPlain.closed s.isPlain.top s.isPlain.startsBlock_eq s.isPlain.trimmed hgap tail
  | choice c => exact gather_headed (by decide) c.exists_text (c.runsTo hkept) c.getLast?_text hgap helse
  | loop head body =>
    have hheading : ∀ h ∈ head.heading?, h.Kept := fun h hh =>
      hkept h (List.mem_append_left _ (Option.mem_toList.2 hh))
    exact gather_headed head.mem_blockWords (exists_headed ..) (runsTo_headed head.mem_blockWords hheading body.closed)
      (getLast?_append_some (getLast?_braces body.text)) hgap helse

/-- No statement begins with `else`. -/
theorem Stmt.notElse (s : Stmt) (t : Text) : startsWith (trimStart (s.text ++ t)) "else".toList = false := by
  cases s with
  | plain s =>
    rw [Stmt.text, List.append_assoc]
    refine semicolon_notElse ?_ t
    rw [s.isPlain.trimStart_eq]
    exact s.isPlain.notElse
  | choice c =>
    obtain ⟨v, hv⟩ := c.exists_text
    rw [Stmt.text, hv, List.append_assoc]
    exact word_notElse (by decide) _
  | loop head body =>
    rw [Stmt.text, lead, List.append_assoc, List.append_assoc]
    exact word_notElse head.mem_blockWords _

theorem Stmts.notElse (b : Stmts) : startsWith (trimStart b.text) "else".toList = false := by
  cases b with
  | done gap => exact blank_notElse gap.blank
  | more gap s rest =>
    rw [Stmts.text, trimStart_append_blank gap.blank]
    exact s.notElse rest.text

theorem Stmts.gather_text : ∀ b : Stmts, (∀ h ∈ b.headings, h.Kept) →
    gather [] b.text (scan b.text) = b.texts ++ [[]]
  | .done gap, _ => gather_blank gap.blank
  | .more gap s rest, hkept => by
    rw [Stmts.text, gather_gap gap.blank,
      s.gather_text (fun h hh => hkept h (List.mem_append_left _ hh)) gap.blank rest.notElse,
      rest.gather_text fun h hh => hkept h (List.mem_append_right _ hh)]
    rfl

theorem Stmt.shown_ne_nil (s : Stmt) : s.shown ≠ [] := by
  cases s with
  | plain s => exact s.isPlain.nonempty
  | choice c =>
    intro hnil
    have hlast := c.getLast?_text
    rw [show c.text = [] from hnil] at hlast
    cases hlast
  | loop head body => simp [Stmt.shown, Stmt.text, braces]

theorem Stmts.ne_nil_of_mem {t : Text} : ∀ b : Stmts, t ∈ b.texts → t ≠ []
  | .done _, ht => by simp [Stmts.texts] at ht
  | .more _ s rest, ht => by
    rcases List.mem_cons.1 ht with rfl | ht
    · exact s.shown_ne_nil
    · exact rest.ne_nil_of_mem ht

/-- A block gives back the texts of its trees. -/
theorem Stmts.splitBlock_text (b : Stmts) (hkept : ∀ h ∈ b.headings, h.Kept) : splitBlock b.text = b.texts := by
  have hkeep : b.texts.filter (fun t => !t.isEmpty) = b.texts := by
    rw [List.filter_eq_self]
    intro t ht
    simpa using b.ne_nil_of_mem ht
  rw [splitBlock_tidy (b.tidy hkept), b.gather_text hkept, List.filter_append, hkeep]
  simp

/-! ## Trees read back -/

theorem Cond.stripParens_text (c : Cond) : stripParens c.text = c.text := by
  simp only [stripParens, c.isHeading.trimmed, c.bare, Bool.false_eq_true, if_false]

/-- What follows the first suite is read as the other branch. -/
theorem Other.otherBranch_text (o : Other) (hkept : ∀ no, o = .otherwise no → ∀ h ∈ no.headings, h.Kept) :
    ((dropPrefix? "else".toList (trimStart o.text)).map fun branch => otherBranch (trimStart branch)) =
      o.texts? := by
  cases o with
  | nothing => rfl
  | elseIf c =>
    obtain ⟨v, hv⟩ := c.exists_text
    show some (otherBranch (trimStart (' ' :: c.text))) = some [c.text]
    rw [hv]
    rfl
  | otherwise no =>
    have hbranch := otherBranch_braces no.closed
    rw [no.splitBlock_text (hkept no rfl)] at hbranch
    exact congrArg some hbranch

theorem LoopHead.decompose_eq (head : LoopHead) {suite : Text} (hsuite : Closed suite) :
    decompose .bare (lead head.word head.heading? ++ braces suite) = .loop head.range (splitBlock suite) := by
  obtain ⟨hclosed, htop, hstart⟩ := isHeader_spaced head.heading?
  have hshape := decompose_loopWord head.mem_loopWords hclosed htop hstart hsuite
  have hrange : (if head.word == "loop".toList then "true".toList else trim (spaced head.heading?)) = head.range := by
    cases head with
    | whilst h => exact h.isHeading.spaced.2.2.2
    | each h => exact h.isHeading.spaced.2.2.2
    | forever => rfl
  have htext : lead head.word head.heading? ++ braces suite =
      head.word ++ ' ' :: (spaced head.heading? ++ '{' :: (suite ++ ['}'])) := by simp [lead, braces]
  rw [htext, hshape, hrange]

/-- The shape of a tree shows its parts. -/
theorem Stmt.shownBy_decompose (s : Stmt) (hkept : ∀ h ∈ s.inner, h.Kept) :
    s.ShownBy (decompose .bare s.text) := by
  cases s with
  | plain s => exact s.isPlain.isFlat
  | choice c =>
    obtain ⟨c, yes, other⟩ := c
    have hyes : ∀ h ∈ yes.headings, h.Kept := fun h hh => hkept h (by cases other <;> simp [Stmt.inner, hh])
    have hother := other.otherBranch_text fun no hno h hh => hkept h (by simp [hno, Stmt.inner, hh])
    have htext : (Stmt.choice (.mk c yes other)).text =
        "if".toList ++ ' ' :: ((c.text ++ [' ']) ++ '{' :: (yes.text ++ '}' :: other.text)) := by
      simp [Stmt.text, Choice.text, lead, spaced, braces]
    rw [htext, decompose_if c.isHeading yes.closed other.getLast?_text, c.stripParens_text,
      yes.splitBlock_text hyes, hother]
    rfl
  | loop head body =>
    rw [Stmt.text, head.decompose_eq body.closed, body.splitBlock_text hkept]
    rfl

/-- **Reading nested statements gives back their structure.** The shape of a tree is the conditional or the
loop with its condition or header and the texts of the trees inside it, in their order, and a block is split
into the texts of its trees, if the headings inside the blocks are kept whole. -/
theorem decompose_written (s : Stmt) (b : Stmts) :
    ((∀ h ∈ s.inner, h.Kept) → s.ShownBy (decompose .bare s.text)) ∧
      ((∀ h ∈ b.headings, h.Kept) → splitBlock b.text = b.texts) :=
  ⟨s.shownBy_decompose, b.splitBlock_text⟩

/-- A loop with one statement inside. -/
def waiting (h : Heading) : Stmts :=
  .more .empty (.loop (.whilst h) (.more .newLine (.plain ⟨"step()".toList, by decide⟩) (.done .newLine))) (.done .empty)

/-- A conditional with a further condition over two lines, an endless loop and an empty block. -/
def voting : Stmt :=
  .choice (.mk ⟨⟨"vote.at == 1".toList, by decide⟩, by decide⟩ (waiting ⟨"iffy(vote)".toList, by decide⟩)
    (.elseIf (.mk ⟨⟨"let Some(v) = vote.next\n  && v.ok".toList, by decide⟩, by decide⟩
      (.more .empty (.loop .forever (.done .empty)) (.done .newLine)) (.otherwise (.done .empty)))))

/-- The same after a statement with a struct literal. -/
def election : Stmts :=
  .more .newLine (.plain ⟨"let vote = Vote \x7b at: 1 \x7d".toList, by decide⟩) (.more .newLine voting (.done .newLine))

theorem decompose_written_election : (∀ h ∈ voting.inner, h.Kept) ∧ voting.ShownBy (decompose .bare voting.text) ∧
    (∀ h ∈ election.headings, h.Kept) ∧ splitBlock election.text = election.texts :=
  have hinner : ∀ h ∈ voting.inner, h.Kept := by decide
  have hkept : ∀ h ∈ election.headings, h.Kept := by decide
  ⟨hinner, (decompose_written voting election).1 hinner, hkept, (decompose_written voting election).2 hkept⟩

/-- A line of a heading that begins with two slashes is dropped as a comment, and a semicolon outside
brackets ends the statement. That such a line is dropped inside a literal too is a defect: it is text there
and no comment. -/
theorem headings_broken :
    splitBlock (waiting ⟨"a\n    // until done\n    && b".toList, by decide⟩).text ≠
      (waiting ⟨"a\n    // until done\n    && b".toList, by decide⟩).texts ∧
    splitBlock (waiting ⟨"text != \"see\n// here\"".toList, by decide⟩).text ≠
      (waiting ⟨"text != \"see\n// here\"".toList, by decide⟩).texts ∧
    splitBlock (waiting ⟨"a; b".toList, by decide⟩).text ≠ (waiting ⟨"a; b".toList, by decide⟩).texts := by
  decide

end Concord.Statement.Braced
