/-
Statements with all their clauses, as they stand on lines. A conditional has any number of
further clauses, a loop may have one more, comments may stand between clauses, and a suite
stands on the line of its header or below it. A comment between clauses cuts a statement
(`Tail.lines_eq`), and the lines of what is left are closed (`Script.Legible.closed`).
-/
import Concord.Proofs.Statement.Compound

namespace Concord.Statement.Indented

open Text Code

/-! ## Statements on lines -/

/-- The words that begin a compound statement or a further clause of one. -/
def clauseWords : List Text := ["if".toList, "for".toList, "while".toList] ++ continuations

/-- A statement of one line that has no suite. -/
structure IsSimple (t : Text) : Prop where
  nonempty : t ≠ []
  trimmed : trim t = t
  oneLine : '\n' ∉ t
  closed : Closed t
  undivided : TopAll (· != ';') t
  unescaped : t.getLast? ≠ some '\\'
  code : t.head? ≠ some '#'
  noClause : ∀ w ∈ clauseWords, beginsWithWord t w = false
  noLoop : dropPrefix? "async for ".toList t = none

instance (t : Text) : Decidable (IsSimple t) :=
  decidable_of_iff
    (t ≠ [] ∧ trim t = t ∧ '\n' ∉ t ∧ Closed t ∧ TopAll (· != ';') t ∧ t.getLast? ≠ some '\\' ∧
      t.head? ≠ some '#' ∧ (∀ w ∈ clauseWords, beginsWithWord t w = false) ∧
      dropPrefix? "async for ".toList t = none)
    ⟨fun ⟨h1, h2, h3, h4, h5, h6, h7, h8, h9⟩ => ⟨h1, h2, h3, h4, h5, h6, h7, h8, h9⟩,
      fun h => ⟨h.1, h.2, h.3, h.4, h.5, h.6, h.7, h.8, h.9⟩⟩

structure SimpleLine where
  text : Text
  isSimple : IsSimple text

/-- What stands between a keyword and the colon after it. -/
structure Header where
  text : Text
  setOff : (text.head?.any fun c => c == ' ' || c == '\t' || c == '(') = true
  oneLine : '\n' ∉ text
  closed : Closed text

/-- A comment on a line of its own. -/
structure Note where
  text : Text
  mark : text.head? = some '#'
  isLine : IsLine text

/-- What the lines of a suite are set in by. -/
structure Pad where
  text : Text
  nonempty : text ≠ []
  blank : ∀ c ∈ text, isBlank c = true
  oneLine : '\n' ∉ text

mutual

/-- A statement with all that stands inside it. -/
inductive Script where
  | simple (s : SimpleLine)
  | compound (w : Keyword) (h : Header) (body : Body) (more : Tail)

/-- The clauses after the first one, each with the comments before it. -/
inductive Tail where
  | stop
  | elif (notes : List Note) (h : Header) (body : Body) (more : Tail)
  | otherwise (notes : List Note) (body : Body)

/-- A suite. -/
inductive Body where
  | inline (s : SimpleLine) (rest : List SimpleLine)
  | block (pad : Pad) (ss : Scripts)

/-- One statement or more, below each other. -/
inductive Scripts where
  | last (s : Script)
  | more (s : Script) (rest : Scripts)

end

/-- What stands of a suite on the line of its header. -/
def Body.first : Body → Text
  | .inline s rest => ' ' :: join [';', ' '] (s.text :: rest.map SimpleLine.text)
  | .block _ _ => []

def headLine (word header : Text) (body : Body) : Text := word ++ (header ++ ':' :: body.first)

mutual

/-- The lines of a statement. -/
def Script.lines : Script → List Text
  | .simple s => [s.text]
  | .compound w h body more => headLine w.text h.text body :: (body.lines ++ more.lines)

def Tail.lines : Tail → List Text
  | .stop => []
  | .elif notes h body more =>
    notes.map Note.text ++ headLine "elif".toList h.text body :: (body.lines ++ more.lines)
  | .otherwise notes body => notes.map Note.text ++ headLine "else".toList [] body :: body.lines

/-- What stands of a suite below its header. -/
def Body.lines : Body → List Text
  | .inline _ _ => []
  | .block pad ss => ss.lines.map (pad.text ++ ·)

def Scripts.lines : Scripts → List Text
  | .last s => s.lines
  | .more s rest => s.lines ++ rest.lines

end

def Script.text (s : Script) : Text := join ['\n'] s.lines

def Tail.text (t : Tail) : Text := join ['\n'] t.lines

mutual

/-- Every header ends at its own colon, and comments `d` or more levels further in are closed. -/
def Script.Legible (d : Nat) : Script → Prop
  | .simple _ => True
  | .compound _ h body more => OneColon h.text ∧ body.Legible d ∧ more.Legible d

def Tail.Legible (d : Nat) : Tail → Prop
  | .stop => True
  | .elif notes h body more =>
    (d = 0 → ∀ n ∈ notes, Closed n.text) ∧ OneColon h.text ∧ body.Legible d ∧ more.Legible d
  | .otherwise notes body => (d = 0 → ∀ n ∈ notes, Closed n.text) ∧ body.Legible d

def Body.Legible (d : Nat) : Body → Prop
  | .inline _ _ => True
  | .block _ ss => ss.Legible (d - 1)

def Scripts.Legible (d : Nat) : Scripts → Prop
  | .last s => s.Legible d
  | .more s rest => s.Legible d ∧ rest.Legible d

end

mutual

theorem Script.Legible.deeper {d e : Nat} (hde : d ≤ e) : ∀ {s : Script}, s.Legible d → s.Legible e
  | .simple _, _ => trivial
  | .compound _ _ _ _, h => ⟨h.1, h.2.1.deeper hde, h.2.2.deeper hde⟩

theorem Tail.Legible.deeper {d e : Nat} (hde : d ≤ e) : ∀ {t : Tail}, t.Legible d → t.Legible e
  | .stop, _ => trivial
  | .elif _ _ _ _, h => ⟨fun he => h.1 (by omega), h.2.1, h.2.2.1.deeper hde, h.2.2.2.deeper hde⟩
  | .otherwise _ _, h => ⟨fun he => h.1 (by omega), h.2.deeper hde⟩

theorem Body.Legible.deeper {d e : Nat} (hde : d ≤ e) : ∀ {b : Body}, b.Legible d → b.Legible e
  | .inline _ _, _ => trivial
  | .block _ ss, h => Scripts.Legible.deeper (s := ss) (by omega) h

theorem Scripts.Legible.deeper {d e : Nat} (hde : d ≤ e) : ∀ {s : Scripts}, s.Legible d → s.Legible e
  | .last s, h => Script.Legible.deeper (s := s) hde h
  | .more _ _, h => ⟨h.1.deeper hde, h.2.deeper hde⟩

end

/-! ## Comments cut statements -/

/-- The clauses before the first comment between them. -/
def Tail.upToNote : Tail → Tail
  | .stop => .stop
  | .elif [] h body more => .elif [] h body more.upToNote
  | .elif (_ :: _) _ _ _ => .stop
  | .otherwise [] body => .otherwise [] body
  | .otherwise (_ :: _) _ => .stop

/-- The lines from the first comment between clauses on. -/
def Tail.fromNote : Tail → List Text
  | .stop => []
  | .elif [] _ _ more => more.fromNote
  | .elif (n :: notes) h body more => Tail.lines (.elif (n :: notes) h body more)
  | .otherwise [] _ => []
  | .otherwise (n :: notes) body => Tail.lines (.otherwise (n :: notes) body)

/-- The clauses that comments cut off, up to the next comment each. -/
def Tail.strays : Tail → List Tail
  | .stop => []
  | .elif [] _ _ more => more.strays
  | .elif (_ :: _) h body more => .elif [] h body more.upToNote :: more.strays
  | .otherwise [] _ => []
  | .otherwise (_ :: _) body => [.otherwise [] body]

theorem Tail.lines_eq : ∀ t : Tail, t.lines = t.upToNote.lines ++ t.fromNote
  | .stop => rfl
  | .elif [] h body more => by
    have hmore := more.lines_eq
    simp only [Tail.upToNote, Tail.fromNote, Tail.lines]
    rw [hmore]
    simp
  | .elif (_ :: _) _ _ _ => rfl
  | .otherwise [] body => by simp [Tail.upToNote, Tail.fromNote]
  | .otherwise (_ :: _) _ => rfl

/-- The comments at the level of a suite are one level further in than its header. -/
theorem Body.Legible.zero {b : Body} (h : b.Legible 1) : b.Legible 0 := by
  cases b with
  | inline s rest => trivial
  | block pad ss => exact h

/-- No comment stands between the clauses before the first one. -/
theorem Tail.Legible.upToNote : ∀ {t : Tail}, t.Legible 1 → t.upToNote.Legible 0
  | .stop, _ => trivial
  | .elif [] _ _ _, h => ⟨by simp, h.2.1, h.2.2.1.zero, h.2.2.2.upToNote⟩
  | .elif (_ :: _) _ _ _, _ => trivial
  | .otherwise [] _, h => ⟨by simp, h.2.zero⟩
  | .otherwise (_ :: _) _, _ => trivial

/-! ## Lines of statements -/

theorem SimpleLine.isCodeLine (s : SimpleLine) : IsCodeLine s.text :=
  isCodeLine_of_trimmed s.isSimple.nonempty s.isSimple.trimmed s.isSimple.oneLine s.isSimple.closed
    s.isSimple.unescaped

theorem isCodeLine_inline (s : SimpleLine) (rest : List SimpleLine) :
    IsCodeLine (join [';', ' '] (s.text :: rest.map SimpleLine.text)) := by
  induction rest generalizing s with
  | nil =>
    rw [List.map_nil, join_singleton]
    exact s.isCodeLine
  | cons u rest ih =>
    have hmark : IsCodeLine ([';', ' '] ++ join [';', ' '] (u.text :: rest.map SimpleLine.text)) :=
      (ih u).append (by decide) (by decide) (.inl (by decide))
    rw [List.map_cons, join_cons _ _ (by simp)]
    exact hmark.append s.isSimple.closed s.isSimple.oneLine (.inr (by simp))

theorem Body.isCodeLine_first (b : Body) : IsCodeLine (':' :: b.first) := by
  cases b with
  | inline s rest =>
    have hline := isCodeLine_inline s rest
    exact hline.append (a := [':', ' ']) (by decide) (by decide) (.inl (by decide))
  | block pad ss =>
    have hcolon : IsCodeLine [':'] := ⟨⟨by decide, ':', rfl, by decide⟩, by decide, by decide⟩
    exact hcolon

theorem isCodeLine_headLine {word header : Text} (hword : IsWord word) (hclosed : Closed header)
    (hfeed : '\n' ∉ header) (b : Body) : IsCodeLine (headLine word header b) := by
  have hplain : Closed word := closed_of_plain fun c hc => (hword.plain c hc).1
  have hwordFeed : '\n' ∉ word := fun hc => (hword.plain _ hc).2 rfl
  have hheader : IsCodeLine (header ++ ':' :: b.first) :=
    b.isCodeLine_first.append hclosed hfeed (.inr (by simp))
  exact hheader.append hplain hwordFeed (.inl hword.fresh)

theorem isCodeLine_compound (w : Keyword) (h : Header) (b : Body) :
    IsCodeLine (headLine w.text h.text b) :=
  isCodeLine_headLine w.isWord h.closed h.oneLine b

theorem isCodeLine_elif (h : Header) (b : Body) : IsCodeLine (headLine "elif".toList h.text b) :=
  isCodeLine_headLine ⟨by decide, by decide⟩ h.closed h.oneLine b

theorem isCodeLine_else (b : Body) : IsCodeLine (headLine "else".toList [] b) :=
  isCodeLine_headLine ⟨by decide, by decide⟩ closed_nil (by simp) b

mutual

theorem Script.isLine : ∀ s : Script, ∀ l ∈ s.lines, IsLine l
  | .simple s, l, hl => by
    rw [Script.lines, List.mem_singleton] at hl
    exact hl ▸ s.isCodeLine.toIsLine
  | .compound w h body more, l, hl => by
    rw [Script.lines, List.mem_cons, List.mem_append] at hl
    rcases hl with rfl | hl | hl
    · exact (isCodeLine_compound w h body).toIsLine
    · exact body.isLine l hl
    · exact more.isLine l hl

theorem Tail.isLine : ∀ t : Tail, ∀ l ∈ t.lines, IsLine l
  | .elif notes h body more, l, hl => by
    simp only [Tail.lines, List.mem_append, List.mem_map, List.mem_cons] at hl
    rcases hl with ⟨n, -, rfl⟩ | rfl | hl | hl
    · exact n.isLine
    · exact (isCodeLine_elif h body).toIsLine
    · exact body.isLine l hl
    · exact more.isLine l hl
  | .otherwise notes body, l, hl => by
    simp only [Tail.lines, List.mem_append, List.mem_map, List.mem_cons] at hl
    rcases hl with ⟨n, -, rfl⟩ | rfl | hl
    · exact n.isLine
    · exact (isCodeLine_else body).toIsLine
    · exact body.isLine l hl

theorem Body.isLine : ∀ b : Body, ∀ l ∈ b.lines, IsLine l
  | .block pad ss, l, hl => by
    obtain ⟨m, hm, rfl⟩ := List.mem_map.1 hl
    exact (ss.isLine m hm).append pad.oneLine

theorem Scripts.isLine : ∀ s : Scripts, ∀ l ∈ s.lines, IsLine l
  | .last s, l, hl => s.isLine l hl
  | .more s rest, l, hl => by
    rw [Scripts.lines, List.mem_append] at hl
    exact hl.elim (s.isLine l) (rest.isLine l)

end

theorem Pad.closed (p : Pad) {l : Text} (h : Closed l) : Closed (p.text ++ l) :=
  (closed_of_blank p.blank).append h (.inl (fresh_of_blank p.blank))

mutual

/-- Nothing is open at the end of a line, if the comments are closed too. -/
theorem Script.Legible.closed : ∀ {s : Script}, s.Legible 0 → ∀ l ∈ s.lines, Closed l
  | .simple s, _, l, hl => by
    rw [Script.lines, List.mem_singleton] at hl
    exact hl ▸ s.isSimple.closed
  | .compound w h body more, hs, l, hl => by
    rw [Script.lines, List.mem_cons, List.mem_append] at hl
    rcases hl with rfl | hl | hl
    · exact (isCodeLine_compound w h body).closed
    · exact hs.2.1.closed l hl
    · exact hs.2.2.closed l hl

theorem Tail.Legible.closed : ∀ {t : Tail}, t.Legible 0 → ∀ l ∈ t.lines, Closed l
  | .elif notes h body more, ht, l, hl => by
    simp only [Tail.lines, List.mem_append, List.mem_map, List.mem_cons] at hl
    rcases hl with ⟨n, hn, rfl⟩ | rfl | hl | hl
    · exact ht.1 rfl n hn
    · exact (isCodeLine_elif h body).closed
    · exact ht.2.2.1.closed l hl
    · exact ht.2.2.2.closed l hl
  | .otherwise notes body, ht, l, hl => by
    simp only [Tail.lines, List.mem_append, List.mem_map, List.mem_cons] at hl
    rcases hl with ⟨n, hn, rfl⟩ | rfl | hl
    · exact ht.1 rfl n hn
    · exact (isCodeLine_else body).closed
    · exact ht.2.closed l hl

theorem Body.Legible.closed : ∀ {b : Body}, b.Legible 0 → ∀ l ∈ b.lines, Closed l
  | .block pad ss, hb, l, hl => by
    obtain ⟨m, hm, rfl⟩ := List.mem_map.1 hl
    exact pad.closed (Scripts.Legible.closed (s := ss) hb m hm)

theorem Scripts.Legible.closed : ∀ {s : Scripts}, s.Legible 0 → ∀ l ∈ s.lines, Closed l
  | .last s, hs, l, hl => Script.Legible.closed (s := s) hs l hl
  | .more s rest, hs, l, hl => by
    rw [Scripts.lines, List.mem_append] at hl
    exact hl.elim (hs.1.closed l) (hs.2.closed l)

end

/-- The last of the lines, if there is one, hides no line end. -/
def Unescaped (ls : List Text) : Prop := ∀ l, ls.getLast? = some l → l.getLast? ≠ some '\\'

theorem unescaped_nil : Unescaped [] := fun l hl => by cases hl

theorem Unescaped.append {a b : List Text} (ha : Unescaped a) (hb : Unescaped b) : Unescaped (a ++ b) := by
  intro l hl
  rw [List.getLast?_append] at hl
  cases hlast : b.getLast? with
  | none =>
    rw [hlast] at hl
    exact ha l hl
  | some m =>
    rw [hlast] at hl
    exact hb l (hlast.trans hl)

theorem Unescaped.cons {l : Text} {ls : List Text} (hl : l.getLast? ≠ some '\\') (h : Unescaped ls) :
    Unescaped (l :: ls) :=
  Unescaped.append (a := [l]) (fun _ hm => Option.some.inj hm ▸ hl) h

/-- What stands before a line does not end the lines. -/
theorem Unescaped.after {l : Text} {ls : List Text} (h : Unescaped (l :: ls)) (before : List Text) :
    Unescaped (before ++ l :: ls) := by
  intro m hm
  refine h m ?_
  rw [List.getLast?_append, List.getLast?_cons] at hm
  rw [List.getLast?_cons]
  exact hm

mutual

theorem Script.unescaped : ∀ s : Script, Unescaped s.lines
  | .simple s => Unescaped.cons s.isSimple.unescaped unescaped_nil
  | .compound w h body more =>
    Unescaped.cons (isCodeLine_compound w h body).unescaped (body.unescaped.append more.unescaped)

theorem Tail.unescaped : ∀ t : Tail, Unescaped t.lines
  | .stop => unescaped_nil
  | .elif _ h body more => Unescaped.after
    (Unescaped.cons (isCodeLine_elif h body).unescaped (body.unescaped.append more.unescaped)) _
  | .otherwise _ body => Unescaped.after
    (Unescaped.cons (isCodeLine_else body).unescaped body.unescaped) _

theorem Body.unescaped : ∀ b : Body, Unescaped b.lines
  | .inline _ _ => unescaped_nil
  | .block pad ss => by
    intro l hl
    rw [Body.lines, List.getLast?_map] at hl
    obtain ⟨m, hm, rfl⟩ := Option.map_eq_some_iff.1 hl
    obtain ⟨c, hc, -⟩ := (ss.isLine m (List.mem_of_getLast? hm)).last
    rw [getLast?_append_some hc, ← hc]
    exact ss.unescaped m hm

theorem Scripts.unescaped : ∀ s : Scripts, Unescaped s.lines
  | .last s => s.unescaped
  | .more s rest => s.unescaped.append rest.unescaped

end

end Concord.Statement.Indented
