/-
Blocks in braces, as texts. A block without comment lines is split as it stands
(`splitBlock_tidy`), and a statement runs on over all that ends none: closed texts without a
semicolon, blocks up to their last brace, and that brace if `else` follows (`RunsTo`).
-/
import Concord.Proofs.Code.Split
import Concord.Statement.Braced

namespace Concord.Statement.Braced

open Text Code

/-! ## Blanks -/

/-- A character that ends no statement. -/
def endsNothing (c : Char) : Bool := c != ';' && c != '}'

variable {gap : Text}

theorem isPlain_of_isBlank {c : Char} (h : isBlank c = true) :
    isPlain c = true ∧ endsNothing c = true := by
  refine ⟨isPlain_of_class (by decide) h, ?_⟩
  simp only [endsNothing, Bool.and_eq_true, bne_iff_ne]
  constructor <;> (rintro rfl; exact absurd h (by decide))

theorem topAll_of_blank (hgap : ∀ c ∈ gap, isBlank c = true) : TopAll endsNothing gap :=
  topAll_of_plain fun c hc => isPlain_of_isBlank (hgap c hc)

theorem blank_notElse (hgap : ∀ c ∈ gap, isBlank c = true) :
    startsWith (trimStart gap) "else".toList = false := by
  rw [trimStart_blank hgap]
  rfl

/-- Blanks between the parts of a block. -/
structure Gap where
  text : Text
  blank : ∀ c ∈ text, isBlank c = true
  noReturn : '\r' ∉ text

def Gap.empty : Gap := ⟨[], by decide, by decide⟩

def Gap.newLine : Gap := ⟨"\n    ".toList, by decide, by decide⟩

/-! ## Lines -/

/-- A line that neither comments nor ends with a carriage return. -/
def TidyLine (l : Text) : Prop := startsWith (trimStart l) "//".toList = false ∧ l.getLast? ≠ some '\r'

def Tidy (t : Text) : Prop := ∀ l ∈ splitAt '\n' t, TidyLine l

instance (l : Text) : Decidable (TidyLine l) :=
  inferInstanceAs (Decidable (startsWith (trimStart l) "//".toList = false ∧ l.getLast? ≠ some '\r'))

instance (t : Text) : Decidable (Tidy t) := inferInstanceAs (Decidable (∀ l ∈ splitAt '\n' t, TidyLine l))

theorem notComment_append {a b : Text} (ha : startsWith (trimStart a) "//".toList = false)
    (hb : startsWith (trimStart b) "//".toList = false) (h : a.getLast? ≠ some '/' ∨ b.head? ≠ some '/') :
    startsWith (trimStart (a ++ b)) "//".toList = false := by
  by_cases hnil : trimStart a = []
  · rwa [trimStart_append_blank (isBlank_of_trimStart_eq_nil hnil)]
  rw [trimStart_append_of_ne hnil, ← Bool.not_eq_true]
  intro hcomment
  obtain ⟨u, hu⟩ : ∃ u, trimStart a ++ b = '/' :: '/' :: u := startsWith_iff.1 hcomment
  obtain ⟨c, v, hv⟩ := List.exists_cons_of_ne_nil hnil
  rw [hv] at ha
  rw [hv, List.cons_append] at hu
  obtain ⟨rfl, htail⟩ := List.cons_eq_cons.1 hu
  cases v with
  | nil =>
    -- the two slashes stand on the two sides of the seam
    have hlast : a.getLast? = some '/' := by
      have hwhole : a.takeWhile isBlank ++ trimStart a = a := List.takeWhile_append_dropWhile
      rw [← hwhole, hv]
      exact getLast?_append_some rfl
    have hhead : b.head? = some '/' := by
      rw [List.nil_append] at htail
      rw [htail, List.head?_cons]
    exact h.elim (· hlast) (· hhead)
  | cons d v =>
    obtain ⟨rfl, -⟩ := List.cons_eq_cons.1 htail
    cases ha

theorem TidyLine.append {a b : Text} (ha : TidyLine a) (hb : TidyLine b)
    (h : a.getLast? ≠ some '/' ∨ b.head? ≠ some '/') : TidyLine (a ++ b) := by
  refine ⟨notComment_append ha.1 hb.1 h, ?_⟩
  have hlast := hb.2
  rw [List.getLast?_append]
  cases hb : b.getLast? with
  | none => exact ha.2
  | some c => rwa [hb] at hlast

/-- Tidy texts stay tidy side by side, unless a comment begins at the seam. -/
theorem Tidy.append {a b : Text} (ha : Tidy a) (hb : Tidy b)
    (h : a.getLast? ≠ some '/' ∨ b.head? ≠ some '/') : Tidy (a ++ b) := by
  obtain ⟨before, x, y, after, hsplit, hsplit', hglued, hx, hy⟩ := splitAt_glue '\n' a b
  have hseam : x.getLast? ≠ some '/' ∨ y.head? ≠ some '/' := by
    refine h.imp (fun h hlast => h ?_) fun h hhead => h ?_
    · obtain ⟨u, rfl⟩ := hx
      exact getLast?_append_some hlast
    · obtain ⟨u, rfl⟩ := hy
      exact head?_append_some hhead
  intro l hl
  rw [hglued, List.mem_append, List.mem_cons] at hl
  rcases hl with hl | rfl | hl
  · exact ha l (by simp [hsplit, hl])
  · exact (ha x (by simp [hsplit])).append (hb y (by simp [hsplit'])) hseam
  · exact hb l (by simp [hsplit', hl])

theorem tidy_of_line {l : Text} (hfeed : '\n' ∉ l) (hl : TidyLine l) : Tidy l := by
  intro x hx
  rw [splitAt_of_not_mem hfeed, List.mem_singleton] at hx
  exact hx ▸ hl

theorem tidy_of_blank (hgap : ∀ c ∈ gap, isBlank c = true) (hreturn : '\r' ∉ gap) : Tidy gap := by
  induction gap with
  | nil => decide
  | cons c gap ih =>
    have hrest := ih (fun d hd => hgap d (by simp [hd])) fun hd => hreturn (by simp [hd])
    have hc : Tidy [c] := by
      by_cases hfeed : c = '\n'
      · rw [hfeed]
        decide
      · refine tidy_of_line (by simpa using Ne.symm hfeed) ⟨?_, ?_⟩
        · rw [trimStart_blank (by simpa using hgap c (by simp))]
          rfl
        · simpa using fun heq => hreturn (by simp [heq])
    refine hc.append hrest (.inl ?_)
    have hblank := hgap c (by simp)
    rw [List.getLast?_singleton, ne_eq, Option.some.injEq]
    rintro rfl
    exact absurd hblank (by decide)

/-- A line feed at the end of a block counts for nothing. -/
theorem gather_feed (cells : List Cell) (last : Cell) (current : Text) :
    gather current (cells.map Cell.char ++ ['\n']) (cells ++ [last]) =
      gather current (cells.map Cell.char) cells := by
  induction cells generalizing current with
  | nil =>
    have hsemi : ('\n' == ';') = false := by decide
    have hbrace : ('\n' == '}') = false := by decide
    have htrim : trim (current.reverse ++ ['\n']) = trim current.reverse := trim_append_blank _ (by decide)
    simp only [List.map_nil, List.nil_append, gather, hsemi, hbrace, Bool.and_false, Bool.false_and,
      Bool.false_eq_true, if_false, List.reverse_cons, htrim]
  | cons cell cells ih =>
    have helse : startsWith (trimStart (cells.map Cell.char ++ ['\n'])) "else".toList =
        startsWith (trimStart (cells.map Cell.char)) "else".toList := by
      by_cases hnil : trimStart (cells.map Cell.char) = []
      · rw [trimStart_append_blank (isBlank_of_trimStart_eq_nil hnil), hnil]
        rfl
      · rw [trimStart_append_of_ne hnil, startsWith_append_cons (by decide)]
    simp only [List.map_cons, List.cons_append, gather, helse, ih]

/-- **A block without comment lines** is split as it stands. -/
theorem splitBlock_tidy {t : Text} (ht : Tidy t) :
    splitBlock t = (gather [] t (scan t)).filter fun s => !s.isEmpty := by
  have hkeep : ∀ ls : List Text, (∀ l ∈ ls, l ∈ splitAt '\n' t) →
      (ls.map dropReturn).filter (fun l => !startsWith (trimStart l) "//".toList) = ls := by
    intro ls hls
    rw [List.map_congr_left fun l hl => dropReturn_of_last (ht l (hls l hl)).2, List.map_id',
      List.filter_eq_self]
    intro l hl
    rw [(ht l (hls l hl)).1]
    rfl
  obtain ⟨before, last, hsplit⟩ : ∃ before last, splitAt '\n' t = before ++ [last] :=
    ⟨_, _, (List.dropLast_concat_getLast (splitAt_ne_nil '\n' t)).symm⟩
  have hbefore := hkeep before fun l hl => by simp [hsplit, hl]
  have hjoin := join_splitAt '\n' t
  rw [hsplit] at hjoin
  by_cases hnil : last = []
  · -- the text ends with a line feed, which is no part of the last line
    have hcode : withoutCommentLines t = join ['\n'] before := by
      simp only [withoutCommentLines, lines, hsplit, List.reverse_append, List.reverse_singleton,
        List.singleton_append, List.reverse_reverse, hnil, List.isEmpty_nil, if_true, hbefore]
    rw [splitBlock, hcode]
    by_cases hnone : before = []
    · rw [← hjoin, hnone, hnil]
      rfl
    · have ht : t = join ['\n'] before ++ ['\n'] := by
        rw [← hjoin, join_append ['\n'] hnone (by simp), join_singleton, hnil, List.append_nil]
      have hscan : scan t = scan (join ['\n'] before) ++
          [(Cursor.start.after (join ['\n'] before)).cell '\n'] := by
        rw [ht, scan, scanFrom_append]
        rfl
      have hfeed := gather_feed (scan (join ['\n'] before))
        ((Cursor.start.after (join ['\n'] before)).cell '\n') []
      have hchars : (scan (join ['\n'] before)).map Cell.char = join ['\n'] before := map_char_scanFrom _ _
      rw [hchars, ← ht, ← hscan] at hfeed
      exact congrArg _ hfeed.symm
  · have hempty : last.isEmpty = false := by simpa using hnil
    have hlast : (!startsWith (trimStart last) "//".toList) = true := by
      rw [(ht last (by simp [hsplit])).1]
      rfl
    have hcode : withoutCommentLines t = t := by
      simp only [withoutCommentLines, lines, hsplit, List.reverse_append, List.reverse_singleton,
        List.singleton_append, List.reverse_reverse, hempty, Bool.false_eq_true, if_false,
        List.filter_append, hbefore, List.filter_cons, hlast, if_true, List.filter_nil, hjoin]
    rw [splitBlock, hcode]

/-! ## Words that begin a block -/

theorem blockWord_plain : ∀ w ∈ blockWords, '}' ∉ w ∧ ∀ c ∈ w, isPlain c = true := by decide

theorem not_closed_closing {w : Text} (hw : ∀ c ∈ w, isPlain c = true) (v : Text) : ¬ Closed (w ++ '}' :: v) := by
  intro h
  have hrun : Cursor.start.run? w = some (.code 0 w.getLast?) := closed_of_plain hw
  have hsinks : (Cursor.code 0 w.getLast?).sinks '}' = true := rfl
  rw [Closed, Cursor.run?_append, hrun, Option.bind_some, Cursor.run?, if_pos hsinks] at h
  cases h

theorem startsBlock_pad (hgap : ∀ c ∈ gap, isBlank c = true) (t : Text) :
    startsBlock (gap ++ t) = startsBlock t := by
  simp only [startsBlock, trimStart_append_blank hgap]

theorem startsBlock_iff {t : Text} : startsBlock t = true ↔
    (trimStart t).head? = some '{' ∨ ∃ w ∈ blockWords, beginsWithWord (trimStart t) w = true := by
  simp only [startsBlock, Bool.or_eq_true, beq_iff_eq, List.any_eq_true]

theorem trimStart_ne_nil_of_startsBlock {t : Text} (h : startsBlock t = true) : trimStart t ≠ [] := by
  intro hnil
  rw [startsBlock, hnil] at h
  cases h

/-- What begins a block before a closing brace begins one with it. -/
theorem startsBlock_append {u v : Text} (hclosed : Closed (u ++ '}' :: v)) (h : startsBlock u = true) :
    startsBlock (u ++ '}' :: v) = true := by
  have hne := trimStart_ne_nil_of_startsBlock h
  rw [startsBlock_iff] at h ⊢
  rw [trimStart_append_of_ne hne]
  refine h.imp head?_append_some fun ⟨w, hw, hbegins⟩ => ⟨w, hw, ?_⟩
  obtain ⟨hbrace, hplain⟩ := blockWord_plain w hw
  rw [beginsWithWord, dropPrefix?_append_cons hbrace]
  rw [beginsWithWord] at hbegins
  split at hbegins
  · -- no brace closes right after a word alone
    rename_i hdrop
    have hblank : ∀ c ∈ u.takeWhile isBlank, isPlain c = true := fun c hc =>
      (isPlain_of_isBlank (List.all_eq_true.1 List.all_takeWhile c hc)).1
    have hu : u = u.takeWhile isBlank ++ w := by
      have hwhole : u.takeWhile isBlank ++ trimStart u = u := List.takeWhile_append_dropWhile
      rw [dropPrefix?_eq_some_iff, List.append_nil] at hdrop
      rw [← hdrop, hwhole]
    rw [hu] at hclosed
    exact absurd hclosed (not_closed_closing (fun c hc => (List.mem_append.1 hc).elim (hblank c) (hplain c)) v)
  · rename_i c r hdrop
    simpa only [hdrop, Option.map_some, List.cons_append] using hbegins
  · cases hbegins

/-- A closing brace at the end begins no block. -/
theorem startsBlock_of_concat {u : Text} (h : startsBlock (u ++ ['}']) = true) : startsBlock u = true := by
  by_cases hnil : trimStart u = []
  · rw [startsBlock_pad (isBlank_of_trimStart_eq_nil hnil)] at h
    cases h
  rw [startsBlock_iff] at h ⊢
  rw [trimStart_append_of_ne hnil] at h
  obtain ⟨c, v, hv⟩ := List.exists_cons_of_ne_nil hnil
  rw [hv] at h ⊢
  refine h.imp id fun ⟨w, hw, hbegins⟩ => ⟨w, hw, ?_⟩
  rw [beginsWithWord, dropPrefix?_append_cons (blockWord_plain w hw).1] at hbegins
  rw [beginsWithWord]
  cases hdrop : dropPrefix? w (c :: v) with
  | none => rwa [hdrop] at hbegins
  | some r =>
    cases r with
    | nil => rfl
    | cons d r => rwa [hdrop] at hbegins

/-- What begins a block begins one as soon as a bracket closes in it. -/
theorem startsBlock_of_append {p q : Text} (htrim : trim p = p) (hmark : '}' ∈ p ∨ ')' ∈ p)
    (h : startsBlock (p ++ q) = true) : startsBlock p = true := by
  have hstart := trimStart_of_trimmed htrim
  have hne : p ≠ [] := hmark.elim List.ne_nil_of_mem List.ne_nil_of_mem
  rw [startsBlock_iff] at h ⊢
  rw [trimStart_append_of_ne (by rwa [hstart]), hstart] at h
  rw [hstart]
  obtain ⟨c, v, rfl⟩ := List.exists_cons_of_ne_nil hne
  refine h.imp id fun ⟨w, hw, hbegins⟩ => ⟨w, hw, ?_⟩
  rw [beginsWithWord] at hbegins
  cases hdrop : dropPrefix? w (c :: v ++ q) with
  | none =>
    rw [hdrop] at hbegins
    cases hbegins
  | some r =>
    rw [hdrop] at hbegins
    rcases List.append_eq_append_iff.1 (dropPrefix?_eq_some_iff.1 hdrop) with ⟨a, ha, -⟩ | ⟨a, ha, hr⟩
    · -- no bracket stands in a word
      have hbracket : ∀ w ∈ blockWords, '}' ∉ w ∧ ')' ∉ w := by decide
      have hword := hbracket w hw
      rw [ha] at hword
      exact (hmark.elim (fun hc => hword.1 (List.mem_append_left a hc)) fun hc =>
        hword.2 (List.mem_append_left a hc)).elim
    · rw [ha, beginsWithWord, dropPrefix?_append]
      cases a with
      | nil => rfl
      | cons d a => rwa [hr] at hbegins

theorem trimStart_word {w : Text} (hw : w ∈ blockWords) (v : Text) : trimStart (w ++ v) = w ++ v := by
  have hwords : ∀ w ∈ blockWords, trimStart w ≠ [] ∧ trimStart w = w := by decide
  rw [trimStart_append_of_ne (hwords w hw).1, (hwords w hw).2]

theorem startsBlock_word {w : Text} (hw : w ∈ blockWords) {c : Char}
    (hc : (isBlank c || c == '(' || c == '{') = true) (v : Text) : startsBlock (w ++ c :: v) = true := by
  refine startsBlock_iff.2 (.inr ⟨w, hw, ?_⟩)
  rw [trimStart_word hw, beginsWithWord, dropPrefix?_append]
  exact hc

/-- What begins with a word and ends with a brace has no blanks around it. -/
theorem trim_word {w v : Text} (hw : w ∈ blockWords) (hlast : (w ++ v).getLast? = some '}') :
    trim (w ++ v) = w ++ v := by
  rw [trim, trimStart_word hw]
  refine trimEnd_of_last fun c hc => ?_
  rw [hlast, Option.some.injEq] at hc
  exact hc ▸ (by decide)

/-- No such word begins a comment or goes on with another branch. -/
theorem word_notStartsWith {w : Text} (hw : w ∈ blockWords) (v : Text) :
    startsWith (w ++ v) "//".toList = false ∧ startsWith (w ++ v) "else".toList = false := by
  simp only [blockWords, List.mem_cons, List.not_mem_nil, or_false] at hw
  rcases hw with rfl | rfl | rfl | rfl | rfl | rfl | rfl | rfl | rfl <;> exact ⟨rfl, rfl⟩

theorem word_notElse {w : Text} (hw : w ∈ blockWords) (v : Text) :
    startsWith (trimStart (w ++ v)) "else".toList = false := by
  rw [trimStart_word hw]
  exact (word_notStartsWith hw v).2

theorem semicolon_notElse {s : Text} (h : startsWith (trimStart s) "else".toList = false) (t : Text) :
    startsWith (trimStart (s ++ ';' :: t)) "else".toList = false := by
  by_cases hnil : trimStart s = []
  · rw [trimStart_append_blank (isBlank_of_trimStart_eq_nil hnil)]
    rfl
  · rwa [trimStart_append_of_ne hnil, startsWith_append_cons (by decide)]

theorem word_plain : ∀ w ∈ blockWords, ∀ c ∈ w ++ [' '],
    isPlain c = true ∧ endsNothing c = true ∧ c ≠ '\n' := by decide

section Heading

variable {w before : Text} (hw : w ∈ blockWords)
include hw

theorem closed_word (h : Closed before) : Closed (w ++ ' ' :: before) := by
  have hword : Closed (w ++ [' ']) := closed_of_plain fun c hc => (word_plain w hw c hc).1
  rw [List.append_cons]
  exact hword.append h (.inl (by simp; decide))

theorem topAll_word (h : TopAll endsNothing before) : TopAll endsNothing (w ++ ' ' :: before) := by
  have hplain := word_plain w hw
  rw [List.append_cons]
  exact (topAll_of_plain fun c hc => ⟨(hplain c hc).1, (hplain c hc).2.1⟩).append h
    (closed_of_plain fun c hc => (hplain c hc).1) (.inl (by simp; decide))

/-- What follows a word is tidy if its lines are, the first of which begins with the word. -/
theorem tidy_word (hlines : ∀ l ∈ (splitAt '\n' before).tail, startsWith (trimStart l) "//".toList = false)
    (hfeeds : ∀ l ∈ splitAt '\n' before, l.getLast? ≠ some '\r') : Tidy (w ++ ' ' :: before) := by
  have hfeed : '\n' ∉ w ++ [' '] := fun hc => (word_plain w hw _ hc).2.2 rfl
  obtain ⟨pre, x, y, after, hsplit, hsplit', hglued, -, -⟩ := splitAt_glue '\n' (w ++ [' ']) before
  rw [splitAt_of_not_mem hfeed] at hsplit
  obtain ⟨rfl, hx⟩ : pre = [] ∧ w ++ [' '] = x := by
    cases pre with
    | nil => exact ⟨rfl, List.head_eq_of_cons_eq hsplit⟩
    | cons b pre => simp at hsplit
  rw [hsplit'] at hlines hfeeds
  rw [List.append_cons]
  intro l hl
  rw [hglued, ← hx, List.nil_append, List.mem_cons] at hl
  rcases hl with rfl | hl
  · refine ⟨?_, ?_⟩
    · rw [List.append_assoc, trimStart_word hw]
      exact (word_notStartsWith hw _).1
    · have hy := hfeeds y (by simp)
      rw [List.getLast?_append]
      cases hlast : y.getLast? with
      | none =>
        rw [Option.none_or, getLast?_append_some rfl]
        decide
      | some c => rwa [hlast] at hy
  · exact ⟨hlines l hl, hfeeds l (by simp [hl])⟩

end Heading

/-! ## Statements that end -/

/-- Characters that end no statement are gathered. -/
theorem gather_over (cells : List Cell) (current t : Text) (more : List Cell)
    (h : ∀ before cell after, cells = before ++ cell :: after → cell.isTop = true → cell.char ≠ ';' ∧
      (cell.char = '}' → startsBlock (current.reverse ++ before.map Cell.char) = false)) :
    gather current (cells.map Cell.char ++ t) (cells ++ more) =
      gather ((cells.map Cell.char).reverse ++ current) t more := by
  induction cells generalizing current with
  | nil => rfl
  | cons cell cells ih =>
    have hfirst := h [] cell cells rfl
    have hsemi : (cell.isTop && cell.char == ';') = false := by
      rw [Bool.and_eq_false_imp]
      exact fun htop => beq_eq_false_iff_ne.2 (hfirst htop).1
    have hbrace : (cell.isTop && cell.char == '}' && startsBlock current.reverse) = false := by
      rw [Bool.and_eq_false_imp, Bool.and_eq_true, beq_iff_eq]
      rintro ⟨htop, hchar⟩
      have hstarts := (hfirst htop).2 hchar
      rwa [List.map_nil, List.append_nil] at hstarts
    have hrest := ih (cell.char :: current) fun before x after hsplit htop => by
      have hx := h (cell :: before) x after (by rw [hsplit, List.cons_append]) htop
      simpa using hx
    rw [List.map_cons, List.cons_append, List.cons_append, gather, hsemi, hbrace]
    simp only [Bool.false_and, Bool.false_eq_true, if_false]
    rw [hrest]
    simp

theorem gather_quiet (cells : List Cell)
    (h : ∀ cell ∈ cells, cell.isTop = true → endsNothing cell.char = true) (current t : Text)
    (more : List Cell) : gather current (cells.map Cell.char ++ t) (cells ++ more) =
      gather ((cells.map Cell.char).reverse ++ current) t more := by
  refine gather_over cells current t more fun before cell after hsplit htop => ?_
  have hchar := h cell (by simp [hsplit]) htop
  simp only [endsNothing, Bool.and_eq_true, bne_iff_ne] at hchar
  exact ⟨hchar.1, fun hbrace => absurd hbrace hchar.2⟩

variable {current : Text} {prev : Option Char}

theorem gather_semicolon (t : Text) :
    gather current (';' :: t) (scanFrom (.code 0 prev) (';' :: t)) =
      trim current.reverse :: gather [] t (scan t) := by
  rw [scanFrom_plain (by decide), gather, scanFrom_fresh (by decide)]
  rfl

/-- Where no `else` follows, the closing brace ends the statement. -/
theorem gather_closing {t : Text} (hstarts : startsBlock current.reverse = true)
    (helse : startsWith (trimStart t) "else".toList = false) (cells : List Cell) :
    gather current ('}' :: t) (⟨'}', some 0⟩ :: cells) =
        trim (current.reverse ++ ['}']) :: gather [] t cells := by
  have htop : Cell.isTop ⟨'}', some 0⟩ = true := rfl
  have hsemi : ('}' == ';') = false := by decide
  simp only [gather, htop, hsemi, hstarts, helse, Bool.and_false, Bool.false_eq_true, if_false,
    beq_self_eq_true, Bool.true_and, Bool.not_false, if_true, List.reverse_cons]

theorem gather_else {t : Text} (helse : startsWith (trimStart t) "else".toList = true) (cells : List Cell) :
    gather current ('}' :: t) (⟨'}', some 0⟩ :: cells) = gather ('}' :: current) t cells := by
  have hsemi : ('}' == ';') = false := by decide
  simp only [gather, hsemi, helse, Bool.and_false, Bool.not_true, Bool.false_eq_true, if_false]

/-- What was gathered is part of the next statement. -/
theorem gather_head (current t : Text) (cells : List Cell) :
    ∃ m others, gather current t cells = trim (current.reverse ++ m) :: others := by
  fun_induction gather current t cells with
  | case1 current c t cell cells hsemi ih => exact ⟨[], _, by rw [List.append_nil]⟩
  | case2 current c t cell cells hsemi hbrace ih => exact ⟨[c], _, by rw [List.reverse_cons]⟩
  | case3 current c t cell cells hsemi hbrace ih =>
    obtain ⟨m, others, hothers⟩ := ih
    exact ⟨c :: m, others, by rw [hothers, List.reverse_cons, List.append_assoc, List.singleton_append]⟩
  | case4 current t cells hnone => exact ⟨[], [], by rw [List.append_nil]⟩

/-- A statement that begins no block ends with its semicolon, whatever braces close in it. -/
theorem gather_plain {s : Text} (hclosed : Closed s) (htop : TopAll (· != ';') s)
    (hstarts : startsBlock s = false) (htrim : trim s = s) (hgap : ∀ c ∈ gap, isBlank c = true) (tail : Text) :
    gather gap.reverse (s ++ ';' :: tail) (scan (s ++ ';' :: tail)) = s :: gather [] tail (scan tail) := by
  have hchars : (scan s).map Cell.char = s := map_char_scanFrom _ s
  have hwalk := gather_over (scan s) gap.reverse (';' :: tail)
    (scanFrom (.code 0 s.getLast?) (';' :: tail)) fun before cell after hsplit hcell => by
      refine ⟨bne_iff_ne.1 (htop cell (by simp [hsplit]) hcell), fun hbrace => ?_⟩
      have hs : s = before.map Cell.char ++ '}' :: after.map Cell.char := by
        rw [← hchars, hsplit, List.map_append, List.map_cons, hbrace]
      rw [List.reverse_reverse, startsBlock_pad hgap, ← Bool.not_eq_true]
      intro hbefore
      rw [hs] at hclosed hstarts
      rw [startsBlock_append hclosed hbefore] at hstarts
      cases hstarts
  have hpad := trim_pad htrim hgap (v := []) (by simp)
  rw [List.append_nil] at hpad
  rw [hchars] at hwalk
  rw [hclosed.scan_append, hwalk, gather_semicolon, List.reverse_append, List.reverse_reverse,
    List.reverse_reverse, hpad]

/-! ## Statements that run on -/

/-- No statement ends in the text before its end `rest`, which stands outside brackets. -/
def RunsTo (rest t : Text) : Prop := ∃ u, t = u ++ rest ∧ ∀ current tail,
  gather current (t ++ tail) (scan (t ++ tail)) =
    gather (u.reverse ++ current) (rest ++ tail)
      (rest.map (⟨·, some 0⟩) ++ scanFrom (.code 0 t.getLast?) tail)

theorem runsTo_closed {a : Text} (ha : Closed a) (h : TopAll endsNothing a) : RunsTo [] a := by
  refine ⟨a, (List.append_nil a).symm, fun current tail => ?_⟩
  have hwalk := gather_quiet (scan a) h current tail (scanFrom (.code 0 a.getLast?) tail)
  rw [scan, map_char_scanFrom, ← scan] at hwalk
  rw [ha.scan_append, hwalk]
  rfl

theorem runsTo_blank (hgap : ∀ c ∈ gap, isBlank c = true) : RunsTo [] gap :=
  runsTo_closed (closed_of_blank hgap) (topAll_of_blank hgap)

def braces (suite : Text) : Text := '{' :: (suite ++ ['}'])

theorem getLast?_braces (suite : Text) : (braces suite).getLast? = some '}' :=
  getLast?_append_some (a := '{' :: suite) rfl

/-- A block runs to its closing brace. -/
theorem runsTo_block {inner : Text} (hinner : Closed inner) : RunsTo ['}'] (braces inner) := by
  refine ⟨'{' :: inner, rfl, fun current tail => ?_⟩
  have hdeep : ∀ cell ∈ (scan inner).map (Cell.raise 1), cell.isTop = true → endsNothing cell.char = true := by
    intro cell hcell htop
    obtain ⟨x, -, rfl⟩ := List.mem_map.1 hcell
    rw [Cell.isTop_raise] at htop
    cases htop
  have hchars : ((scan inner).map (Cell.raise 1)).map Cell.char = inner := by
    rw [List.map_map]
    exact map_char_scanFrom .start inner
  have hwalk := gather_quiet _ hdeep ('{' :: current) ('}' :: tail)
    (⟨'}', some 0⟩ :: scanFrom (.code 0 (some '}')) tail)
  have htext : braces inner ++ tail = '{' :: (inner ++ '}' :: tail) := by simp [braces]
  rw [hchars] at hwalk
  rw [htext, getLast?_braces, scan, Cursor.start, hinner.scanFrom_group rfl rfl, gather]
  simpa using hwalk

/-- What was read before counts only if it hides a quote. -/
theorem scanFrom_getLast?_append {a : Text} (ha : Fresh a.getLast?) (b tail : Text) :
    scanFrom (.code 0 (a ++ b).getLast?) tail = scanFrom (.code 0 b.getLast?) tail := by
  rw [List.getLast?_append]
  cases b.getLast? with
  | none => rw [Option.none_or, scanFrom_fresh ha, scanFrom_fresh (by decide)]
  | some c => rfl

theorem RunsTo.append {rest a b : Text} (ha : RunsTo [] a) (hfresh : Fresh a.getLast?) (hb : RunsTo rest b) :
    RunsTo rest (a ++ b) := by
  obtain ⟨u, hu, hwalk⟩ := ha
  obtain ⟨v, hv, hwalk'⟩ := hb
  rw [List.append_nil] at hu
  refine ⟨u ++ v, by rw [hu, hv, List.append_assoc], fun current tail => ?_⟩
  rw [List.append_assoc, hwalk, List.nil_append, List.map_nil, List.nil_append, scanFrom_fresh hfresh, hwalk',
    scanFrom_getLast?_append hfresh, List.reverse_append, List.append_assoc]

theorem trimStart_else {b : Text} (h : startsWith (trimStart b) "else".toList = true) (tail : Text) :
    startsWith (trimStart (b ++ tail)) "else".toList = true := by
  obtain ⟨u, hu⟩ := startsWith_iff.1 h
  rw [trimStart_append_of_ne (by rw [hu]; simp), hu, List.append_assoc]
  exact startsWith_append _ _

/-- A closing brace goes on if `else` follows it. -/
theorem RunsTo.goesOn {rest a b : Text} (ha : RunsTo ['}'] a)
    (helse : startsWith (trimStart b) "else".toList = true) (hb : RunsTo rest b) : RunsTo rest (a ++ b) := by
  obtain ⟨u, hu, hwalk⟩ := ha
  obtain ⟨v, hv, hwalk'⟩ := hb
  have hfresh : Fresh a.getLast? := by
    rw [hu, getLast?_append_some rfl]
    decide
  refine ⟨a ++ v, by rw [hv, List.append_assoc], fun current tail => ?_⟩
  rw [List.append_assoc, hwalk, List.map_singleton, List.singleton_append, List.singleton_append,
    gather_else (trimStart_else helse tail), scanFrom_fresh hfresh, hwalk', scanFrom_getLast?_append hfresh, hu]
  simp

/-- **A statement that ends with its block** ends where no `else` follows. -/
theorem RunsTo.gather_eq {t : Text} (ht : RunsTo ['}'] t) (hstarts : startsBlock t = true) (htrim : trim t = t)
    (hgap : ∀ c ∈ gap, isBlank c = true) {tail : Text}
    (helse : startsWith (trimStart tail) "else".toList = false) :
    gather gap.reverse (t ++ tail) (scan (t ++ tail)) = t :: gather [] tail (scan tail) := by
  obtain ⟨u, rfl, hwalk⟩ := ht
  have hbefore : startsBlock (u.reverse ++ gap.reverse).reverse = true := by
    rw [List.reverse_append, List.reverse_reverse, List.reverse_reverse, startsBlock_pad hgap]
    exact startsBlock_of_concat hstarts
  have hpad := trim_pad htrim hgap (v := []) (by simp)
  have hfresh : Fresh (u ++ ['}']).getLast? := by
    rw [getLast?_append_some rfl]
    decide
  rw [List.append_nil] at hpad
  rw [hwalk, List.map_singleton, List.singleton_append, List.singleton_append, gather_closing hbefore helse,
    scanFrom_fresh hfresh, List.reverse_append, List.reverse_reverse, List.reverse_reverse, List.append_assoc, hpad]

theorem RunsTo.gather_semicolon {t : Text} (ht : RunsTo [] t) (htrim : trim t = t)
    (hgap : ∀ c ∈ gap, isBlank c = true) (tail : Text) :
    gather gap.reverse (t ++ ';' :: tail) (scan (t ++ ';' :: tail)) = t :: gather [] tail (scan tail) := by
  obtain ⟨u, hu, hwalk⟩ := ht
  have hpad := trim_pad htrim hgap (v := []) (by simp)
  rw [List.append_nil] at hu hpad
  rw [hwalk, ← hu, List.nil_append, List.map_nil, List.nil_append, Braced.gather_semicolon, List.reverse_append,
    List.reverse_reverse, List.reverse_reverse, hpad]

/-- Blanks before a statement are no part of it. -/
theorem gather_gap (hgap : ∀ c ∈ gap, isBlank c = true) (t : Text) :
    gather [] (gap ++ t) (scan (gap ++ t)) = gather gap.reverse t (scan t) := by
  obtain ⟨u, hu, hwalk⟩ := runsTo_blank hgap
  rw [List.append_nil] at hu
  rw [hwalk, ← hu, scanFrom_fresh (fresh_of_blank hgap), List.append_nil]
  rfl

theorem gather_blank (hgap : ∀ c ∈ gap, isBlank c = true) : gather [] gap (scan gap) = [[]] := by
  have hwalk := gather_gap hgap []
  have htrim := trim_append_blank [] hgap
  rw [List.append_nil] at hwalk
  rw [List.nil_append] at htrim
  rw [hwalk]
  show [trim gap.reverse.reverse] = [[]]
  rw [List.reverse_reverse, htrim]
  rfl

end Concord.Statement.Braced
