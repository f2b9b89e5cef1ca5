/-
Clauses read back. The lines of a suite are gathered into the statements that were written
there, each cut where a comment stands between its clauses (`gather_scripts`,
`splitBlock_scripts`). A clause gives back its header, what its suite is read as and the
lines after it (`clause?_body`), and so the shape of a statement shows its suites
(`decompose_choice`, `decompose_loops`).
-/
import Concord.Proofs.Statement.Script

namespace Concord.Statement.Indented

open Text Code

/-! ## Gathering the lines of a suite -/

/-- Lines that are gathered into one statement. -/
structure IsBlock (ls : List Text) : Prop where
  lines : ∀ l ∈ ls, IsLine l
  closed : ∀ l ∈ ls, Closed l
  begins : ∃ l rest, ls = l :: rest ∧ startsBlank l = false ∧ (trim l).head? ≠ some '#' ∧
    ∀ m ∈ rest, Continues m
  unescaped : Unescaped ls

/-- Lines of which the first, if there is one, does not go on with what stands before it. -/
def Parts (ls : List Text) : Prop := ∀ l, ls.head? = some l →
  IsLine l ∧ startsBlank l = false ∧ continuations.any (beginsWithWord (trim l)) = false

theorem parts_nil : Parts [] := fun l hl => by cases hl

theorem IsBlock.ne_nil {b : List Text} (h : IsBlock b) : b ≠ [] := by
  obtain ⟨l, rest, rfl, -⟩ := h.begins
  simp

/-- A statement ends before a line that does not go on with it. -/
theorem gather_parts {b more : List Text} (hb : IsBlock b) (hmore : Parts more) :
    gather b more = b :: gather [] more := by
  have hempty : b.isEmpty = false := by simpa using hb.ne_nil
  cases more with
  | nil => simp [gather, hempty]
  | cons l more =>
    obtain ⟨hline, hflush, hfresh⟩ := hmore l rfl
    have hopen : openBrackets (join ['\n'] b) = 0 := by
      rw [openBrackets, Cursor.after_of_run? (closed_lines hb.closed)]
    obtain ⟨last, hlast⟩ := Option.isSome_iff_exists.1 (List.getLast?_isSome.2 hb.ne_nil)
    have hescape : ((trimEnd last).getLast? == some '\\') = false := by
      obtain ⟨c, hc, hblank⟩ := (hb.lines last (List.mem_of_getLast? hlast)).last
      have htrim : trimEnd last = last := trimEnd_of_last fun x hx => by
        rw [hc, Option.some.injEq] at hx
        exact hx ▸ hblank
      rw [htrim, beq_eq_false_iff_ne]
      exact hb.unescaped last hlast
    have hword : (trim l).isEmpty = false := by simpa using hline.trim_ne_nil
    rw [gather, gather]
    simp [hopen, hlast, hescape, hflush, hfresh, hword, hempty]

theorem gather_block {b more : List Text} (hb : IsBlock b) (hmore : Parts more) :
    gather [] (b ++ more) = b :: gather [] more := by
  obtain ⟨l, rest, hcons, -, hcode, hrest⟩ := hb.begins
  have hword := (hb.lines l (by simp [hcons])).trim_ne_nil
  have hfirst : gather [] (l :: (rest ++ more)) = gather [l] (rest ++ more) := by
    rw [gather]
    simp [hcode, hword]
  rw [← gather_parts hb hmore, hcons, List.cons_append, hfirst, gather_continues (by simp) hrest]
  rfl

theorem Note.trim_head (n : Note) : (trim n.text).head? = some '#' := by
  obtain ⟨u, hu⟩ := List.head?_eq_some_iff.1 n.mark
  obtain ⟨c, hc, hblank⟩ := n.isLine.last
  have htrim : trim n.text = n.text := by
    refine trim_eq_self_iff.2 ⟨fun x hx => ?_, fun x hx => ?_⟩
    · rw [n.mark, Option.some.injEq] at hx
      exact hx ▸ (by decide)
    · rw [hc, Option.some.injEq] at hx
      exact hx ▸ hblank
  rw [htrim]
  exact n.mark

theorem gather_notes (notes : List Note) (more : List Text) :
    gather [] (notes.map Note.text ++ more) = gather [] more := by
  induction notes with
  | nil => rfl
  | cons n notes ih =>
    rw [List.map_cons, List.cons_append, gather]
    simp [n.trim_head, ih]

/-- A comment goes on with nothing. -/
theorem parts_note (n : Note) (ls : List Text) : Parts (n.text :: ls) := by
  intro l hl
  obtain rfl := Option.some.inj hl
  refine ⟨n.isLine, ?_, ?_⟩
  · obtain ⟨u, hu⟩ := List.head?_eq_some_iff.1 n.mark
    rw [hu]
    rfl
  · obtain ⟨u, hu⟩ := List.head?_eq_some_iff.1 n.trim_head
    rw [hu]
    rfl

theorem startsBlank_of_head {l : Text} {c : Char} (hhead : l.head? = some c) (hblank : isBlank c = false) :
    startsBlank l = false := by
  obtain ⟨u, rfl⟩ := List.head?_eq_some_iff.1 hhead
  exact hblank

theorem SimpleLine.begins (s : SimpleLine) : Begins s.text := by
  obtain ⟨x, u, hcons⟩ := List.exists_cons_of_ne_nil s.isSimple.nonempty
  refine ⟨?_, ?_, by rw [s.isSimple.trimmed]; exact s.isSimple.code⟩
  · rw [hcons]
    exact (trim_eq_self_iff.1 s.isSimple.trimmed).1 x (by rw [hcons]; rfl)
  · rw [s.isSimple.trimmed, List.any_eq_false]
    intro w hw
    rw [s.isSimple.noClause w (List.mem_append_right _ hw)]
    exact Bool.false_ne_true

/-- The first character of a keyword is neither blank nor the mark of a comment. -/
theorem begins_compound (w : Keyword) (h : Header) (b : Body) : Begins (headLine w.text h.text b) := by
  have hcode := isCodeLine_compound w h b
  rcases w with _ | (_ | _)
  all_goals
    have htrim := hcode.trim_self rfl (by decide)
    exact ⟨rfl, by rw [htrim]; rfl, by rw [htrim]; simp [headLine, Keyword.text, LoopWord.text]⟩

/-- A header is set off from the word before it. -/
theorem Header.beginsWithWord (h : Header) (w after : Text) :
    beginsWithWord (w ++ (h.text ++ after)) w = true := by
  have hsetOff := h.setOff
  rw [Indented.beginsWithWord, dropPrefix?_append]
  cases hcons : h.text with
  | nil => simp [hcons] at hsetOff
  | cons c u =>
    simp only [hcons, List.head?_cons, Option.any_some, Bool.or_eq_true, beq_iff_eq] at hsetOff
    rcases hsetOff with (rfl | rfl) | rfl <;> rfl

theorem continues_elif (h : Header) (b : Body) : Continues (headLine "elif".toList h.text b) := by
  have hword := h.beginsWithWord "elif".toList (':' :: b.first)
  right
  rw [(isCodeLine_elif h b).trim_self rfl (by decide), List.any_eq_true]
  exact ⟨"elif".toList, by decide, hword⟩

theorem continues_else (b : Body) : Continues (headLine "else".toList [] b) := by
  right
  rw [(isCodeLine_else b).trim_self rfl (by decide)]
  rfl

theorem Body.continues (b : Body) : ∀ l ∈ b.lines, Continues l := by
  intro l hl
  cases b with
  | inline s rest => cases hl
  | block pad ss =>
    obtain ⟨m, -, rfl⟩ := List.mem_map.1 hl
    obtain ⟨c, u, hcons⟩ := List.exists_cons_of_ne_nil pad.nonempty
    left
    rw [hcons]
    exact pad.blank c (by simp [hcons])

theorem Tail.upToNote_continues : ∀ t : Tail, ∀ l ∈ t.upToNote.lines, Continues l
  | .elif [] h body more, l, hl => by
    simp only [Tail.upToNote, Tail.lines, List.map_nil, List.nil_append, List.mem_cons,
      List.mem_append] at hl
    rcases hl with rfl | hl | hl
    · exact continues_elif h body
    · exact body.continues l hl
    · exact more.upToNote_continues l hl
  | .otherwise [] body, l, hl => by
    simp only [Tail.upToNote, Tail.lines, List.map_nil, List.nil_append, List.mem_cons] at hl
    rcases hl with rfl | hl
    · exact continues_else body
    · exact body.continues l hl

theorem Tail.parts_fromNote : ∀ (t : Tail) {more : List Text}, Parts more → Parts (t.fromNote ++ more)
  | .stop, _, h => h
  | .elif [] _ _ more, _, h => more.parts_fromNote h
  | .elif (n :: _) _ _ _, _, _ => parts_note n _
  | .otherwise [] _, _, h => h
  | .otherwise (n :: _) _, _, _ => parts_note n _

/-- Lines that go on with the statement before them and leave nothing open. -/
structure IsRest (ls : List Text) : Prop where
  lines : ∀ l ∈ ls, IsLine l
  closed : ∀ l ∈ ls, Closed l
  continues : ∀ l ∈ ls, Continues l
  unescaped : Unescaped ls

theorem IsRest.append {a b : List Text} (ha : IsRest a) (hb : IsRest b) : IsRest (a ++ b) where
  lines l hl := (List.mem_append.1 hl).elim (ha.lines l) (hb.lines l)
  closed l hl := (List.mem_append.1 hl).elim (ha.closed l) (hb.closed l)
  continues l hl := (List.mem_append.1 hl).elim (ha.continues l) (hb.continues l)
  unescaped := ha.unescaped.append hb.unescaped

theorem Body.Legible.isRest {b : Body} (h : b.Legible 1) : IsRest b.lines :=
  ⟨b.isLine, h.zero.closed, b.continues, b.unescaped⟩

theorem Tail.Legible.isRest {t : Tail} (h : t.Legible 1) : IsRest t.upToNote.lines :=
  ⟨t.upToNote.isLine, h.upToNote.closed, t.upToNote_continues, t.upToNote.unescaped⟩

/-- A line of code and what goes on with it are gathered into one statement. -/
theorem IsRest.isBlock {rest : List Text} (h : IsRest rest) {l : Text} (hl : IsCodeLine l) {c : Char}
    (hhead : l.head? = some c) (hblank : isBlank c = false) (hcode : c ≠ '#') : IsBlock (l :: rest) where
  lines m hm := (List.mem_cons.1 hm).elim (fun he => he ▸ hl.toIsLine) (h.lines m)
  closed m hm := (List.mem_cons.1 hm).elim (fun he => he ▸ hl.closed) (h.closed m)
  begins := by
    refine ⟨l, rest, rfl, startsBlank_of_head hhead hblank, ?_, h.continues⟩
    rw [hl.trim_self hhead hblank, hhead]
    simpa using hcode
  unescaped := Unescaped.cons hl.unescaped h.unescaped

/-- What a comment cut off is gathered up to the next comment. -/
theorem isBlock_elif {h : Header} {body : Body} {more : Tail} (hbody : body.Legible 1)
    (hmore : more.Legible 1) : IsBlock (Tail.lines (.elif [] h body more.upToNote)) :=
  (hbody.isRest.append hmore.isRest).isBlock (isCodeLine_elif h body) (c := 'e') rfl (by decide) (by decide)

theorem isBlock_else {body : Body} (hbody : body.Legible 1) : IsBlock (Tail.lines (.otherwise [] body)) :=
  hbody.isRest.isBlock (isCodeLine_else body) (c := 'e') rfl (by decide) (by decide)

theorem Tail.Legible.isBlock_strays : ∀ {t : Tail}, t.Legible 1 → ∀ u ∈ t.strays, IsBlock u.lines
  | .elif [] _ _ more, h, u, hu => Tail.Legible.isBlock_strays (t := more) h.2.2.2 u hu
  | .elif (_ :: _) _ _ more, h, u, hu => by
    rcases List.mem_cons.1 hu with rfl | hu
    · exact isBlock_elif h.2.2.1 h.2.2.2
    · exact h.2.2.2.isBlock_strays u hu
  | .otherwise (_ :: _) _, h, u, hu => by
    rw [List.mem_singleton.1 hu]
    exact isBlock_else h.2

/-- What stands after a comment is gathered in pieces, each up to the next comment. -/
theorem gather_fromNote : ∀ (t : Tail), t.Legible 1 → ∀ {more : List Text}, Parts more →
    gather [] (t.fromNote ++ more) = t.strays.map Tail.lines ++ gather [] more
  | .stop, _, more, _ => rfl
  | .elif [] _ _ t, h, more, hmore => gather_fromNote t h.2.2.2 hmore
  | .elif (n :: notes) hd body t, h, more, hmore => by
    -- the comments are skipped, and the clause runs up to the next of them
    have hlines : Tail.fromNote (.elif (n :: notes) hd body t) =
        (n :: notes).map Note.text ++ (Tail.lines (.elif [] hd body t.upToNote) ++ t.fromNote) := by
      simp only [Tail.fromNote, Tail.lines]
      rw [t.lines_eq]
      simp
    have hrest := gather_fromNote t h.2.2.2 hmore
    rw [hlines, List.append_assoc, gather_notes, List.append_assoc,
      gather_block (isBlock_elif h.2.2.1 h.2.2.2) (t.parts_fromNote hmore), hrest]
    rfl
  | .otherwise [] _, _, more, _ => rfl
  | .otherwise (n :: notes) body, h, more, hmore => by
    have hlines : Tail.fromNote (.otherwise (n :: notes) body) =
        (n :: notes).map Note.text ++ Tail.lines (.otherwise [] body) := by
      simp [Tail.fromNote, Tail.lines]
    rw [hlines, List.append_assoc, gather_notes, gather_block (isBlock_else h.2) hmore]
    rfl

/-! ## Statements of a suite -/

/-- What a suite is read as. -/
inductive Item where
  | line (s : SimpleLine)
  | whole (s : Script)
  /-- Clauses that a comment cut off. -/
  | stray (t : Tail)

def Item.text : Item → Text
  | .line s => s.text
  | .whole s => s.text
  | .stray t => t.text

/-- What a statement that stands below a header is read as. -/
def Script.items : Script → List Item
  | .simple s => if s.text = "pass".toList then [] else [.line s]
  | .compound w h body more => .whole (.compound w h body more.upToNote) :: more.strays.map .stray

def Scripts.items : Scripts → List Item
  | .last s => s.items
  | .more s rest => s.items ++ rest.items

def Body.items : Body → List Item
  | .inline s rest => (s :: rest).map .line
  | .block _ ss => ss.items

/-- The lines that are gathered into the statements. -/
def Script.blocks : Script → List (List Text)
  | .simple s => [[s.text]]
  | .compound w h body more =>
    Script.lines (.compound w h body more.upToNote) :: more.strays.map Tail.lines

def Scripts.blocks : Scripts → List (List Text)
  | .last s => s.blocks
  | .more s rest => s.blocks ++ rest.blocks

theorem isBlock_simple (s : SimpleLine) : IsBlock [s.text] where
  lines l hl := List.mem_singleton.1 hl ▸ s.isCodeLine.toIsLine
  closed l hl := List.mem_singleton.1 hl ▸ s.isSimple.closed
  begins := ⟨s.text, [], rfl, s.begins.flush, s.begins.code, by simp⟩
  unescaped := Unescaped.cons s.isSimple.unescaped unescaped_nil

theorem isBlock_compound {w : Keyword} {h : Header} {body : Body} {more : Tail} (hbody : body.Legible 1)
    (hmore : more.Legible 1) : IsBlock (Script.lines (.compound w h body more.upToNote)) := by
  have hrest := hbody.isRest.append hmore.isRest
  have hcode := isCodeLine_compound w h body
  rcases w with _ | (_ | _)
  · exact hrest.isBlock hcode (c := 'i') rfl (by decide) (by decide)
  · exact hrest.isBlock hcode (c := 'w') rfl (by decide) (by decide)
  · exact hrest.isBlock hcode (c := 'f') rfl (by decide) (by decide)

theorem Script.Legible.isBlock {s : Script} (h : s.Legible 1) : ∀ b ∈ s.blocks, IsBlock b := by
  intro b hb
  cases s with
  | simple s =>
    rw [List.mem_singleton.1 hb]
    exact isBlock_simple s
  | compound w hd body more =>
    rcases List.mem_cons.1 hb with rfl | hb
    · exact isBlock_compound h.2.1 h.2.2
    · obtain ⟨u, hu, rfl⟩ := List.mem_map.1 hb
      exact h.2.2.isBlock_strays u hu

theorem Scripts.Legible.isBlock : ∀ {s : Scripts}, s.Legible 1 → ∀ b ∈ s.blocks, IsBlock b
  | .last s, h, b, hb => Script.Legible.isBlock (s := s) h b hb
  | .more _ _, h, b, hb => (List.mem_append.1 hb).elim (h.1.isBlock b) (h.2.isBlock b)

/-- The first line of a statement goes on with nothing. -/
theorem Script.parts (s : Script) (more : List Text) : Parts (s.lines ++ more) := by
  intro l hl
  cases s with
  | simple s =>
    obtain rfl := Option.some.inj hl
    exact ⟨s.isCodeLine.toIsLine, s.begins.flush, s.begins.fresh⟩
  | compound w h body t =>
    obtain rfl := Option.some.inj hl
    have hbegins := begins_compound w h body
    exact ⟨(isCodeLine_compound w h body).toIsLine, hbegins.flush, hbegins.fresh⟩

theorem gather_script {s : Script} (h : s.Legible 1) {more : List Text} (hmore : Parts more) :
    gather [] (s.lines ++ more) = s.blocks ++ gather [] more := by
  cases s with
  | simple s => exact gather_block (isBlock_simple s) hmore
  | compound w hd body t =>
    have hlines : Script.lines (.compound w hd body t) =
        Script.lines (.compound w hd body t.upToNote) ++ t.fromNote := by
      simp only [Script.lines]
      rw [t.lines_eq]
      simp
    rw [hlines, List.append_assoc, gather_block (isBlock_compound h.2.1 h.2.2) (t.parts_fromNote hmore),
      gather_fromNote t h.2.2 hmore]
    rfl

/-- **Lines are gathered into the statements** they were written for, cut at the comments between
clauses. -/
theorem gather_scripts : ∀ {s : Scripts}, s.Legible 1 → gather [] s.lines = s.blocks
  | .last s, h => by
    have hlines := gather_script (s := s) h parts_nil
    rw [List.append_nil] at hlines
    exact hlines.trans (List.append_nil _)
  | .more s rest, h => by
    have hrest := gather_scripts h.2
    have hparts : Parts rest.lines := by
      cases rest with
      | last u =>
        have hu := u.parts []
        rwa [List.append_nil] at hu
      | more u us => exact u.parts us.lines
    rw [Scripts.lines, gather_script h.1 hparts, hrest]
    rfl

theorem IsBlock.trim_join {b : List Text} (h : IsBlock b) : trim (join ['\n'] b) = join ['\n'] b := by
  obtain ⟨l, rest, rfl, hflush, -⟩ := h.begins
  exact trim_lines h.lines hflush

theorem IsBlock.trimEnd_join {b : List Text} (h : IsBlock b) : trimEnd (join ['\n'] b) = join ['\n'] b :=
  trimEnd_of_last (trim_eq_self_iff.1 h.trim_join).2

theorem IsBlock.join_ne_nil {b : List Text} (h : IsBlock b) : join ['\n'] b ≠ [] := by
  obtain ⟨l, rest, rfl, -⟩ := h.begins
  exact Text.join_ne_nil ['\n'] (h.lines l (by simp)).ne_nil rest

theorem head?_compound (w : Keyword) (h : Header) (body : Body) (more : Tail) :
    (Script.text (.compound w h body more)).head? = w.text.head? := by
  have hne := (isCodeLine_compound w h body).toIsLine.ne_nil
  rw [Script.text, Script.lines, Text.head?_join ['\n'] hne]
  rcases w with _ | (_ | _) <;> rfl

theorem compound_ne_pass (w : Keyword) (h : Header) (body : Body) (more : Tail) :
    Script.text (.compound w h body more) ≠ "pass".toList := by
  intro he
  have hhead := head?_compound w h body more
  rw [he] at hhead
  rcases w with _ | (_ | _) <;> exact absurd hhead (by decide)

/-- What a comment cut off begins with `el`. -/
theorem strays_text : ∀ {t : Tail}, ∀ u ∈ t.strays, ∃ v, u.text = 'e' :: 'l' :: v
  | .elif [] _ _ more, u, hu => strays_text (t := more) u hu
  | .elif (_ :: _) h body more, u, hu => by
    rcases List.mem_cons.1 hu with rfl | hu
    · obtain ⟨v, hv⟩ := exists_join_cons ['\n'] (headLine "elif".toList h.text body)
        (body.lines ++ more.upToNote.lines)
      exact ⟨_, hv⟩
    · exact strays_text u hu
  | .otherwise (_ :: _) body, u, hu => by
    rw [List.mem_singleton.1 hu]
    obtain ⟨v, hv⟩ := exists_join_cons ['\n'] (headLine "else".toList [] body) body.lines
    exact ⟨_, hv⟩

/-- Only `pass` is not taken over from a suite. -/
theorem filter_blocks {s : Script} (h : s.Legible 1) :
    ((s.blocks.map (join ['\n'])).filter fun t => !t.isEmpty && t != "pass".toList) =
      s.items.map Item.text := by
  cases s with
  | simple s =>
    have hne := s.isSimple.nonempty
    have hempty : s.text.isEmpty = false := by simpa using hne
    simp only [Script.blocks, Script.items, List.map_cons, List.map_nil, join_singleton]
    by_cases hpass : s.text = "pass".toList
    · rw [if_pos hpass, hpass]
      rfl
    · have hkept : ∀ t ∈ [s.text], (!t.isEmpty && t != "pass".toList) = true := by
        intro t ht
        rw [List.mem_singleton.1 ht, hempty, bne_iff_ne.2 hpass]
        rfl
      rw [if_neg hpass, List.filter_eq_self.2 hkept]
      rfl
  | compound w hd body more =>
    have hmap : (Script.blocks (.compound w hd body more)).map (join ['\n']) =
        (Script.items (.compound w hd body more)).map Item.text := by
      simp [Script.blocks, Script.items, Item.text, Script.text, Tail.text, Function.comp_def]
    rw [hmap, List.filter_eq_self]
    intro t ht
    obtain ⟨b, hb, hjoin⟩ := List.mem_map.1 (hmap ▸ ht)
    have hne := hjoin ▸ (h.isBlock b hb).join_ne_nil
    have hpass : t ≠ "pass".toList := by
      obtain ⟨item, hitem, rfl⟩ := List.mem_map.1 ht
      rcases List.mem_cons.1 hitem with rfl | hitem
      · exact compound_ne_pass w hd body _
      · obtain ⟨u, hu, rfl⟩ := List.mem_map.1 hitem
        obtain ⟨v, hv⟩ := strays_text u hu
        rw [Item.text, hv]
        exact fun he => absurd (List.cons.inj he).1 (by decide)
    rw [bne_iff_ne.2 hpass, Bool.and_true]
    simpa using hne

theorem filter_scripts : ∀ {s : Scripts}, s.Legible 1 →
    ((s.blocks.map (join ['\n'])).filter fun t => !t.isEmpty && t != "pass".toList) =
      s.items.map Item.text
  | .last s, h => filter_blocks (s := s) h
  | .more s rest, h => by
    rw [Scripts.blocks, List.map_append, List.filter_append, filter_blocks h.1, filter_scripts h.2,
      ← List.map_append]
    rfl

theorem Script.lines_flush (s : Script) : ∃ l ∈ s.lines, indentOf l = 0 := by
  have hzero : ∀ {l : Text}, startsBlank l = false → indentOf l = 0 := by
    intro l hflush
    cases l with
    | nil => rfl
    | cons c l =>
      have hc : isBlank c = false := hflush
      simp [indentOf, hc]
  cases s with
  | simple s => exact ⟨s.text, by simp [Script.lines], hzero s.begins.flush⟩
  | compound w h body more => exact ⟨_, by simp [Script.lines], hzero (begins_compound w h body).flush⟩

theorem Scripts.lines_flush (s : Scripts) : ∃ l ∈ s.lines, indentOf l = 0 := by
  cases s with
  | last s => exact s.lines_flush
  | more s rest =>
    obtain ⟨l, hl, hzero⟩ := s.lines_flush
    exact ⟨l, List.mem_append_left _ hl, hzero⟩

/-- **A suite below its header gives back its statements**, cut at the comments between clauses. -/
theorem splitBlock_scripts {s : Scripts} (h : s.Legible 1) (pad : Pad) :
    splitBlock (join ['\n'] (Body.lines (.block pad s))) = s.items.map Item.text := by
  obtain ⟨flush, hmem, hzero⟩ := s.lines_flush
  rw [splitBlock, Body.lines, outdent_padded s.isLine ⟨flush, hmem, hzero⟩ pad.blank pad.oneLine, statements,
    lines_join (List.ne_nil_of_mem hmem) s.isLine, gather_scripts h]
  have hmap : s.blocks.map (fun ls => trimEnd (join ['\n'] ls)) = s.blocks.map (join ['\n']) :=
    List.map_congr_left fun b hb => (h.isBlock b hb).trimEnd_join
  rw [hmap, filter_scripts h]

/-! ## Clauses and shapes -/

theorem trim_inline (s : SimpleLine) (rest : List SimpleLine) :
    trim (join [';', ' '] (s.text :: rest.map SimpleLine.text)) =
      join [';', ' '] (s.text :: rest.map SimpleLine.text) := by
  obtain ⟨c, u, hcons⟩ := List.exists_cons_of_ne_nil s.isSimple.nonempty
  have hhead : s.text.head? = some c := by rw [hcons]; rfl
  refine (isCodeLine_inline s rest).trim_self (c := c) ?_ ((trim_eq_self_iff.1 s.isSimple.trimmed).1 c hhead)
  rw [head?_join _ s.isSimple.nonempty, hhead]

theorem splitTop_inline (s : SimpleLine) (rest : List SimpleLine) :
    splitTop ';' (join [';', ' '] (s.text :: rest.map SimpleLine.text)) = s.text :: rest.map SimpleLine.text := by
  have hmem : ∀ t ∈ s.text :: rest.map SimpleLine.text, ∃ u : SimpleLine, u.text = t := by
    intro t ht
    rcases List.mem_cons.1 ht with rfl | ht
    · exact ⟨s, rfl⟩
    · obtain ⟨u, -, hu⟩ := List.mem_map.1 ht
      exact ⟨u, hu⟩
  refine splitTop_parts (by decide) (by decide) (fun t ht => ?_) fun t ht => ?_
  · obtain ⟨u, rfl⟩ := hmem t ht
    exact ⟨u.isSimple.closed, u.isSimple.undivided⟩
  · obtain ⟨u, rfl⟩ := hmem t ht
    exact ⟨u.isSimple.trimmed, u.isSimple.nonempty⟩

theorem cut?_line {l : Text} (h : '\n' ∉ l) (after : List Text) :
    (cut? ['\n'] (join ['\n'] (l :: after))).getD (join ['\n'] (l :: after), []) = (l, join ['\n'] after) := by
  by_cases hnil : after = []
  · rw [hnil, join_singleton, cut?_char_none h]
    rfl
  · rw [join_cons ['\n'] l hnil, List.singleton_append, cut?_char h]
    rfl

/-- A clause whose suite stands on the line of its header. -/
theorem clause?_inline {word header : Text} (hword : IsWord word) (hclosed : Closed header)
    (hcolon : OneColon header) (s : SimpleLine) (rest : List SimpleLine) (after : List Text) :
    clause? (word ++ (header ++ ':' :: join ['\n'] (Body.first (.inline s rest) :: after))) word.length =
      some ⟨trim header, s.text :: rest.map SimpleLine.text, join ['\n'] after⟩ := by
  have hline := isCodeLine_inline s rest
  have hfeed : '\n' ∉ Body.first (.inline s rest) := by
    simp only [Body.first, List.mem_cons, not_or]
    exact ⟨by decide, hline.noFeed⟩
  have hcut := cut?_line hfeed after
  have htrim : trim (Body.first (.inline s rest)) = join [';', ' '] (s.text :: rest.map SimpleLine.text) :=
    trim_cons_space (trim_inline s rest)
  have hkeep : (!(join [';', ' '] (s.text :: rest.map SimpleLine.text)).isEmpty &&
      (join [';', ' '] (s.text :: rest.map SimpleLine.text)).head? != some '#') = true := by
    have hempty := hline.ne_nil
    rw [head?_join _ s.isSimple.nonempty, bne_iff_ne.2 s.isSimple.code, Bool.and_true]
    simpa using hempty
  have hnext : (join ['\n'] (Body.first (.inline s rest) :: after)).head? ≠ some '=' := by
    rw [head?_join _ (by simp [Body.first])]
    simp [Body.first]
  generalize join ['\n'] (Body.first (.inline s rest) :: after) = text at hcut hnext ⊢
  have hplace := colon_place (fun c hc => (hword.plain c hc).1) hword.fresh hclosed hcolon hnext
  obtain ⟨htake, hdrop⟩ := take_drop_colon word header text
  simp only [clause?, hplace, Option.bind_eq_bind, Option.bind_some, htake, hdrop, hcut, htrim, hkeep, if_true,
    splitTop_inline]
  rfl

/-- **A clause gives back** its header, what its suite is read as and the lines after it. -/
theorem clause?_body {word header : Text} (hword : IsWord word) (hclosed : Closed header)
    (hcolon : OneColon header) {b : Body} (hb : b.Legible 2) {after : List Text}
    (hafter : ∀ l ∈ after, IsLine l) (hflush : ∀ l, after.head? = some l → startsBlank l = false) :
    clause? (join ['\n'] (headLine word header b :: (b.lines ++ after))) word.length =
      some ⟨trim header, b.items.map Item.text, join ['\n'] after⟩ := by
  have htext : join ['\n'] (headLine word header b :: (b.lines ++ after)) =
      word ++ (header ++ ':' :: join ['\n'] (b.first :: (b.lines ++ after))) := by
    have hline : headLine word header b = (word ++ header ++ [':']) ++ b.first := by simp [headLine]
    rw [hline, join_append_cons]
    simp
  rw [htext]
  cases b with
  | inline s rest =>
    have hclause := clause?_inline hword hclosed hcolon s rest after
    have hitems : (Body.items (.inline s rest)).map Item.text = s.text :: rest.map SimpleLine.text := by
      simp [Body.items, Item.text, Function.comp_def]
    rw [hitems]
    exact hclause
  | block pad ss =>
    have hne : Body.lines (.block pad ss) ≠ [] := by
      obtain ⟨l, hl, -⟩ := ss.lines_flush
      exact List.ne_nil_of_mem (List.mem_map_of_mem hl)
    have hbelow : ∀ l ∈ Body.lines (.block pad ss), IsLine l ∧ startsBlank l = true := by
      intro l hl
      refine ⟨Body.isLine _ l hl, ?_⟩
      obtain ⟨m, -, rfl⟩ := List.mem_map.1 hl
      obtain ⟨c, u, hcons⟩ := List.exists_cons_of_ne_nil pad.nonempty
      rw [hcons]
      exact pad.blank c (by simp [hcons])
    have hfirst : join ['\n'] (Body.first (.block pad ss) :: (Body.lines (.block pad ss) ++ after)) =
        '\n' :: join ['\n'] (Body.lines (.block pad ss) ++ after) :=
      join_cons ['\n'] [] (List.append_ne_nil_of_left_ne_nil hne _)
    rw [hfirst, clause?_below (fun c hc => (hword.plain c hc).1) hword.fresh hclosed hcolon hne hbelow hafter
      hflush, splitBlock_scripts hb]
    rfl

theorem Tail.flush (t : Tail) : ∀ l, t.lines.head? = some l → startsBlank l = false := by
  intro l hl
  have hnote : ∀ n : Note, startsBlank n.text = false := fun n => startsBlank_of_head n.mark (by decide)
  cases t with
  | stop => cases hl
  | elif notes h body more =>
    cases notes with
    | nil => exact Option.some.inj hl ▸ rfl
    | cons n notes => exact Option.some.inj hl ▸ hnote n
  | otherwise notes body =>
    cases notes with
    | nil => exact Option.some.inj hl ▸ rfl
    | cons n notes => exact Option.some.inj hl ▸ hnote n

theorem clause?_compound {w : Keyword} {h : Header} {body : Body} {more : Tail}
    (hs : (Script.compound w h body more).Legible 2) :
    clause? (Script.text (.compound w h body more)) w.text.length =
      some ⟨trim h.text, body.items.map Item.text, more.text⟩ :=
  clause?_body w.isWord h.closed hs.1 hs.2.1 more.isLine more.flush

theorem exists_compound_text (w : Keyword) (h : Header) (body : Body) (more : Tail) :
    ∃ v, Script.text (.compound w h body more) = w.text ++ (h.text ++ v) := by
  obtain ⟨v, hv⟩ := exists_join_cons ['\n'] (headLine w.text h.text body) (body.lines ++ more.lines)
  exact ⟨':' :: (body.first ++ v), by rw [Script.text, Script.lines, hv]; simp [headLine]⟩

theorem trim_compound (w : Keyword) (h : Header) (body : Body) (more : Tail) :
    trim (Script.text (.compound w h body more)) = Script.text (.compound w h body more) :=
  trim_lines (Script.isLine (.compound w h body more)) (begins_compound w h body).flush

/-- What the other branch of a conditional is read as. A comment hides what stands after it. -/
def Tail.next? : Tail → Option (List Item)
  | .stop => none
  | .elif [] h body more => some [.whole (.compound .choice h body more)]
  | .elif (_ :: _) _ _ _ => none
  | .otherwise [] body => some body.items
  | .otherwise (_ :: _) _ => none

theorem otherwiseOf_tail {t : Tail} (h : t.Legible 2) :
    otherwiseOf (stripLeading '\n' t.text) = t.next?.map (List.map Item.text) := by
  -- a comment is neither of the words that a further clause begins with
  have hnote : ∀ (n : Note) (ls : List Text),
      otherwiseOf (stripLeading '\n' (join ['\n'] (n.text :: ls))) = none := by
    intro n ls
    obtain ⟨u, hu⟩ := List.head?_eq_some_iff.1 n.mark
    obtain ⟨v, hv⟩ := exists_join_cons ['\n'] n.text ls
    rw [hv, hu]
    rfl
  cases t with
  | stop => rfl
  | elif notes hd body more =>
    cases notes with
    | nil =>
      have htext : Tail.text (.elif [] hd body more) =
          "elif".toList ++ join ['\n'] ((hd.text ++ ':' :: body.first) :: (body.lines ++ more.lines)) :=
        join_append_cons _ _ _ _
      have hwhole : Script.text (.compound .choice hd body more) =
          "if".toList ++ join ['\n'] ((hd.text ++ ':' :: body.first) :: (body.lines ++ more.lines)) :=
        join_append_cons _ _ _ _
      rw [htext, Tail.next?, Option.map_some, List.map_singleton, Item.text, hwhole]
      rfl
    | cons n notes => exact hnote n _
  | otherwise notes body =>
    cases notes with
    | nil =>
      have hclause : clause? (join ['\n'] (headLine "else".toList [] body :: (body.lines ++ []))) 4 =
          some ⟨[], body.items.map Item.text, []⟩ :=
        clause?_body ⟨by decide, by decide⟩ closed_nil (by decide) h.2 (by simp) (by simp)
      have htext : join ['\n'] (headLine "else".toList [] body :: (body.lines ++ [])) =
          "else:".toList ++ join ['\n'] (body.first :: (body.lines ++ [])) :=
        join_append_cons ['\n'] "else:".toList body.first (body.lines ++ [])
      have helse : Tail.text (.otherwise [] body) =
          "else:".toList ++ join ['\n'] (body.first :: (body.lines ++ [])) := by
        rw [← htext, List.append_nil]
        rfl
      rw [htext] at hclause
      rw [helse]
      have hstrip : otherwiseOf
          (stripLeading '\n' ("else:".toList ++ join ['\n'] (body.first :: (body.lines ++ [])))) =
          (clause? ("else:".toList ++ join ['\n'] (body.first :: (body.lines ++ []))) 4).map Clause.body := rfl
      rw [hstrip, hclause]
      rfl
    | cons n notes => exact hnote n _

/-- **The shape of a conditional** shows its suite and the next clause. -/
theorem decompose_choice {h : Header} {body : Body} {more : Tail}
    (hs : (Script.compound .choice h body more).Legible 2) :
    decompose (Script.text (.compound .choice h body more)) =
      .conditional (trim h.text) (body.items.map Item.text) (more.next?.map (List.map Item.text)) := by
  obtain ⟨v, hv⟩ := exists_compound_text .choice h body more
  have hif : beginsWithWord (Script.text (.compound .choice h body more)) "if".toList = true := by
    rw [hv]
    exact h.beginsWithWord _ v
  have hclause := conditional_eq (clause?_compound hs)
  simp only [decompose, trim_compound, hif, if_true, hclause, otherwiseOf_tail hs.2.2]

/-- **The shape of a loop** shows its suite and nothing after it. -/
theorem decompose_loops {w : LoopWord} {h : Header} {body : Body} {more : Tail}
    (hs : (Script.compound (.loop w) h body more).Legible 2) :
    decompose (Script.text (.compound (.loop w) h body more)) =
      .loop (trim h.text) (body.items.map Item.text) := by
  obtain ⟨v, hv⟩ := exists_compound_text (.loop w) h body more
  have hclause := clause?_compound hs
  have htrim := trim_compound (.loop w) h body more
  have hword := h.beginsWithWord w.text v
  rw [hv] at hclause htrim ⊢
  exact decompose_looping htrim hword hclause

end Concord.Statement.Indented
