/-
Compound statements as they stand on lines, with suites that are indented. Lines are
gathered into the statements they were written for (`gather_statements`), a clause gives
back its header and the statements of its suite (`clause?_suite`), and so the shape of a
statement shows its parts (`decompose_if`, `decompose_loopWord`).
-/
import Concord.Proofs.Statement.Tree

namespace Concord.Statement.Indented

open Text Code

/-! ## Gathering lines -/

/-- A line that begins a statement. -/
structure Begins (l : Text) : Prop where
  flush : startsBlank l = false
  fresh : continuations.any (beginsWithWord (trim l)) = false
  code : (trim l).head? ≠ some '#'

/-- A line that goes on with the statement before it. -/
def Continues (l : Text) : Prop :=
  startsBlank l = true ∨ continuations.any (beginsWithWord (trim l)) = true

/-- A line whose literals end and whose brackets match, and which hides no line end. -/
structure IsCodeLine (l : Text) : Prop extends IsLine l where
  closed : Closed l
  unescaped : l.getLast? ≠ some '\\'

/-- The lines of one statement. -/
structure IsStatement (ls : List Text) : Prop where
  lines : ∀ l ∈ ls, IsCodeLine l
  begins : ∃ l rest, ls = l :: rest ∧ Begins l ∧ ∀ m ∈ rest, Continues m
  notPass : join ['\n'] ls ≠ "pass".toList

theorem gather_continues {current : List Text} (hne : current ≠ []) {ls : List Text}
    (h : ∀ l ∈ ls, Continues l) (more : List Text) :
    gather current (ls ++ more) = gather (current ++ ls) more := by
  induction ls generalizing current with
  | nil => simp
  | cons l ls ih =>
    have hempty : current.isEmpty = false := by simpa using hne
    have hrest : gather (current ++ [l]) (ls ++ more) = gather (current ++ l :: ls) more := by
      rw [ih (by simp) fun m hm => h m (by simp [hm]), List.append_assoc, List.singleton_append]
    rw [List.cons_append, gather, ← hrest]
    rcases h l (by simp) with hgoes | hgoes <;> simp [hempty, hgoes]

theorem closed_lines {ls : List Text} (h : ∀ l ∈ ls, Closed l) : Closed (join ['\n'] ls) := by
  induction ls with
  | nil => exact closed_nil
  | cons l ls ih =>
    have hrest := ih fun m hm => h m (by simp [hm])
    by_cases hnil : ls = []
    · rw [hnil, join_singleton]
      exact h l (by simp)
    · have hfeed : Closed ['\n'] := by decide
      rw [join_cons ['\n'] l hnil]
      exact (h l (by simp)).append (hfeed.append hrest (.inl (by decide))) (.inr (by simp))

/-- Nothing of a statement is open after its last line. -/
theorem openBrackets_statement {ls : List Text} (h : IsStatement ls) : openBrackets (join ['\n'] ls) = 0 := by
  have hclosed := closed_lines fun l hl => (h.lines l hl).closed
  rw [openBrackets, Cursor.after_of_run? hclosed]

theorem IsStatement.ne_nil {ls : List Text} (h : IsStatement ls) : ls ≠ [] := by
  obtain ⟨l, rest, rfl, -⟩ := h.begins
  simp

theorem IsCodeLine.trimEnd_self {l : Text} (h : IsCodeLine l) : trimEnd l = l := by
  obtain ⟨c, hc, hblank⟩ := h.last
  refine trimEnd_of_last fun x hx => ?_
  rw [hc, Option.some.injEq] at hx
  exact hx ▸ hblank

/-- The first line of a statement ends the statement before it. -/
theorem gather_begins {current : List Text} (hcurrent : IsStatement current) {l : Text} (hl : Begins l)
    (hline : IsLine l) (more : List Text) : gather current (l :: more) = current :: gather [l] more := by
  have hempty : current.isEmpty = false := by simpa using hcurrent.ne_nil
  obtain ⟨last, hlast⟩ := Option.isSome_iff_exists.1 (List.getLast?_isSome.2 hcurrent.ne_nil)
  have hcode := hcurrent.lines last (List.mem_of_getLast? hlast)
  have hescape : ((trimEnd last).getLast? == some '\\') = false := by
    rw [hcode.trimEnd_self, beq_eq_false_iff_ne]
    exact hcode.unescaped
  have hword := hline.trim_ne_nil
  rw [gather]
  simp [openBrackets_statement hcurrent, hlast, hescape, hl.flush, hl.fresh, hl.code, hword, hempty]

theorem gather_first {l : Text} (hl : Begins l) (hline : IsLine l) (more : List Text) :
    gather [] (l :: more) = gather [l] more := by
  rw [gather]
  simp [hl.code, hline.trim_ne_nil]

/-- The statement being gathered is whole before the next one begins. -/
theorem gather_statement {blocks : List (List Text)} (h : ∀ b ∈ blocks, IsStatement b) {current : List Text}
    (hcurrent : IsStatement current) : gather current blocks.flatten = current :: blocks := by
  induction blocks generalizing current with
  | nil => simp [gather, hcurrent.ne_nil]
  | cons b blocks ih =>
    have hb := h b (by simp)
    obtain ⟨l, rest, hcons, hl, hrest⟩ := hb.begins
    have hline := (hb.lines l (by simp [hcons])).toIsLine
    rw [List.flatten_cons, hcons, List.cons_append, gather_begins hcurrent hl hline,
      gather_continues (by simp) hrest, List.singleton_append, ← hcons,
      ih (fun x hx => h x (by simp [hx])) hb]

/-- **Lines are gathered into the statements** they were written for. -/
theorem gather_statements {blocks : List (List Text)} (h : ∀ b ∈ blocks, IsStatement b) :
    gather [] blocks.flatten = blocks := by
  cases blocks with
  | nil => rfl
  | cons b blocks =>
    have hb := h b (by simp)
    obtain ⟨l, rest, hcons, hl, hrest⟩ := hb.begins
    have hline := (hb.lines l (by simp [hcons])).toIsLine
    rw [List.flatten_cons, hcons, List.cons_append, gather_first hl hline, gather_continues (by simp) hrest,
      List.singleton_append, ← hcons, gather_statement (fun x hx => h x (by simp [hx])) hb]

/-- Lines that begin and end with something to see are their own trim. -/
theorem trim_lines {l : Text} {rest : List Text} (h : ∀ m ∈ l :: rest, IsLine m) (hflush : startsBlank l = false) :
    trim (join ['\n'] (l :: rest)) = join ['\n'] (l :: rest) := by
  refine trim_eq_self_iff.2 ⟨fun x hx => ?_, fun x hx => ?_⟩
  · have hne := (h l (by simp)).ne_nil
    rw [head?_join ['\n'] hne] at hx
    obtain ⟨u, rfl⟩ := List.head?_eq_some_iff.1 hx
    exact hflush
  · obtain ⟨before, last, hlast⟩ : ∃ before last, l :: rest = before ++ [last] :=
      ⟨_, _, (List.dropLast_concat_getLast (by simp)).symm⟩
    have hline := h last (by simp [hlast])
    obtain ⟨c, hc, hblank⟩ := hline.last
    rw [hlast, getLast?_join ['\n'] hline.ne_nil, hc, Option.some.injEq] at hx
    exact hx ▸ hblank

theorem trim_statement {ls : List Text} (h : IsStatement ls) : trim (join ['\n'] ls) = join ['\n'] ls := by
  obtain ⟨l, rest, rfl, hl, -⟩ := h.begins
  exact trim_lines (fun m hm => (h.lines m hm).toIsLine) hl.flush

theorem trimEnd_statement {ls : List Text} (h : IsStatement ls) :
    trimEnd (join ['\n'] ls) = join ['\n'] ls :=
  trimEnd_of_last (trim_eq_self_iff.1 (trim_statement h)).2

theorem join_statement_ne_nil {ls : List Text} (h : IsStatement ls) : join ['\n'] ls ≠ [] := by
  obtain ⟨l, rest, rfl, -⟩ := h.begins
  exact join_ne_nil ['\n'] (h.lines l (by simp)).toIsLine.ne_nil rest

/-- A block gives back the statements that it was written from. -/
theorem splitBlock_statements {blocks : List (List Text)} (hne : blocks ≠ [])
    (h : ∀ b ∈ blocks, IsStatement b) (n : Nat) :
    splitBlock (join ['\n'] (blocks.flatten.map (indent n))) = blocks.map (join ['\n']) := by
  have hlines : ∀ l ∈ blocks.flatten, IsLine l := by
    intro l hl
    obtain ⟨b, hb, hl⟩ := List.mem_flatten.1 hl
    exact ((h b hb).lines l hl).toIsLine
  have hflush : ∃ l ∈ blocks.flatten, indentOf l = 0 := by
    obtain ⟨b, bs, rfl⟩ := List.exists_cons_of_ne_nil hne
    obtain ⟨l, rest, rfl, hl, -⟩ := (h b (by simp)).begins
    refine ⟨l, by simp, ?_⟩
    cases l with
    | nil => rfl
    | cons c l =>
      have hc : isBlank c = false := hl.flush
      simp [indentOf, hc]
  have hflat : blocks.flatten ≠ [] := by
    obtain ⟨l, hl, -⟩ := hflush
    exact List.ne_nil_of_mem hl
  rw [splitBlock, outdent_indented hlines hflush, statements, lines_join hflat hlines, gather_statements h]
  have hmap : blocks.map (fun ls => trimEnd (join ['\n'] ls)) = blocks.map (join ['\n']) :=
    List.map_congr_left fun b hb => trimEnd_statement (h b hb)
  rw [hmap, List.filter_eq_self]
  intro s hs
  obtain ⟨b, hb, rfl⟩ := List.mem_map.1 hs
  have hkeep := join_statement_ne_nil (h b hb)
  have hpass := (h b hb).notPass
  simp only [Bool.and_eq_true, Bool.not_eq_true', List.isEmpty_eq_false_iff, bne_iff_ne]
  exact ⟨hkeep, hpass⟩

/-! ## Clauses -/

/-- Every colon at the top level of a header is that of `:=`. -/
def OneColon (head : Text) : Prop := ∀ i, (scan head)[i]? = some ⟨':', some 0⟩ → head[i + 1]? = some '='

instance (head : Text) : Decidable (OneColon head) :=
  decidable_of_iff (∀ i < head.length, (scan head)[i]? = some ⟨':', some 0⟩ → head[i + 1]? = some '=')
    ⟨fun h i hi => h i (by simpa using (List.getElem?_eq_some_iff.1 hi).1) hi, fun h i _ => h i⟩

theorem oneColon_of_top {head : Text} (h : TopAll (· != ':') head) : OneColon head := by
  intro i hi
  have hcolon := h _ (List.mem_of_getElem? hi) rfl
  cases hcolon

/-- The colon of a header ends it. -/
theorem colon_place {word head : Text} (hword : ∀ c ∈ word, isPlain c = true) (hfresh : Fresh word.getLast?)
    (hhead : Closed head) (hcolon : OneColon head) {after : Text} (hafter : after.head? ≠ some '=') :
    findTopWhere? (fun u => u.head? == some ':' && u[1]? != some '=') (word ++ (head ++ ':' :: after))
      word.length = some (word.length + head.length) := by
  have hscan : (scan (word ++ (head ++ ':' :: after))).drop word.length =
      scanFrom (.code 0 word.getLast?) (head ++ ':' :: after) := by
    rw [scan, Cursor.start, scanFrom_plains hword, Option.or_none]
    exact List.drop_left' (by simp)
  have hquiet : ∀ i cell, (scan head)[i]? = some cell → cell.isTop = true →
      ((head.drop i ++ ':' :: after).head? == some ':' && (head.drop i ++ ':' :: after)[1]? != some '=') =
        false := by
    rintro i ⟨c, depth⟩ hcell htop
    obtain rfl : depth = some 0 := by simpa [Cell.isTop] using htop
    have hi : i < head.length := by simpa using (List.getElem?_eq_some_iff.1 hcell).1
    have hchar : head[i]? = some c := by
      rw [← map_char_scanFrom .start head, List.getElem?_map]
      exact congrArg (Option.map Cell.char) hcell
    have hfirst : (head.drop i ++ ':' :: after).head? = some c := by
      rw [List.head?_append, List.head?_drop, hchar]
      rfl
    rw [Bool.and_eq_false_imp, hfirst, beq_iff_eq, Option.some.injEq]
    rintro rfl
    -- the colon at this place has its equals sign in the header
    obtain ⟨hlt, hnext⟩ := List.getElem?_eq_some_iff.1 (hcolon i hcell)
    have hsecond : (head.drop i ++ ':' :: after)[1]? = some '=' := by
      rw [List.getElem?_append_left (by rw [List.length_drop]; omega), List.getElem?_drop]
      exact hcolon i hcell
    simp [hsecond]
  have hends : ((':' :: after).head? == some ':' && (':' :: after)[1]? != some '=') = true := by
    cases after with
    | nil => rfl
    | cons c after => simpa using hafter
  rw [findTopWhere?, List.drop_left, hscan, firstTop?_closed_at hhead hfresh _ hquiet,
    firstTop?_here (.inl (by decide)) hends]
  simp only [Option.map_some, Nat.zero_add]
  rw [Nat.add_comm]

/-- What stands before and after the colon of a header. -/
theorem take_drop_colon (word head after : Text) :
    ((word ++ (head ++ ':' :: after)).take (word.length + head.length)).drop word.length = head ∧
      (word ++ (head ++ ':' :: after)).drop (word.length + head.length + 1) = after := by
  constructor
  · rw [List.take_length_add_append, List.drop_left, List.take_left]
  · rw [Nat.add_assoc, List.drop_length_add_append, List.drop_length_add_append]
    rfl

/-- What is alike at the head of a list ends at the first element that is not. -/
theorem span_append {α : Type} {p : α → Bool} {a b : List α} (ha : ∀ l ∈ a, p l = true)
    (hb : ∀ l, b.head? = some l → p l = false) :
    (a ++ b).takeWhile p = a ∧ (a ++ b).dropWhile p = b := by
  rw [List.takeWhile_append_of_pos ha, List.dropWhile_append_of_pos ha]
  cases b with
  | nil => simp
  | cons l b => simp [hb l rfl]

/-- A clause whose suite stands on the lines below ends at the first line that is not set in. -/
theorem clause?_below {word head : Text} (hword : ∀ c ∈ word, isPlain c = true) (hfresh : Fresh word.getLast?)
    (hhead : Closed head) (hcolon : OneColon head) {below after : List Text} (hne : below ≠ [])
    (hbelow : ∀ l ∈ below, IsLine l ∧ startsBlank l = true) (hafter : ∀ l ∈ after, IsLine l)
    (hflush : ∀ l, after.head? = some l → startsBlank l = false) :
    clause? (word ++ (head ++ ':' :: '\n' :: join ['\n'] (below ++ after))) word.length =
      some ⟨trim head, splitBlock (join ['\n'] below), join ['\n'] after⟩ := by
  have hindented : ∀ l ∈ below, (allBlank l || startsBlank l) = true := by
    intro l hl
    rw [(hbelow l hl).2]
    exact Bool.or_true _
  have hends : ∀ l, after.head? = some l → (allBlank l || startsBlank l) = false := by
    intro l hl
    rw [(hafter l (List.mem_of_head? hl)).not_allBlank, hflush l hl]
    rfl
  obtain ⟨htakeWhile, hdropWhile⟩ := span_append hindented hends
  have hlines : lines (join ['\n'] (below ++ after)) = below ++ after := by
    refine lines_join (List.append_ne_nil_of_left_ne_nil hne _) fun l hl => ?_
    exact (List.mem_append.1 hl).elim (fun hl => (hbelow l hl).1) (hafter l)
  generalize hjoin : join ['\n'] (below ++ after) = text at hlines ⊢
  have hnext : ('\n' :: text).head? ≠ some '=' := by simp
  have hplace := colon_place hword hfresh hhead hcolon hnext
  obtain ⟨htake, hdrop⟩ := take_drop_colon word head ('\n' :: text)
  have hcut : cut? ['\n'] ('\n' :: text) = some ([], text) := cut?_append ['\n'] text
  simp only [clause?, hplace, Option.bind_eq_bind, Option.bind_some, htake, hdrop, hcut, Option.getD_some,
    hlines, htakeWhile, hdropWhile]
  rfl

/-! ## Lines of compound statements -/

/-- A word that begins a clause. -/
structure IsWord (w : Text) : Prop where
  plain : ∀ c ∈ w, isPlain c = true ∧ c ≠ '\n'
  fresh : Fresh w.getLast?

/-- The words that begin a compound statement. -/
inductive Keyword where
  | choice
  | loop (w : LoopWord)
deriving DecidableEq, Repr

def Keyword.text : Keyword → Text
  | choice => "if".toList
  | loop w => w.text

theorem Keyword.isWord (w : Keyword) : IsWord w.text := by
  rcases w with _ | (_ | _)
  · exact ⟨by decide, by decide⟩
  · exact ⟨by decide, by decide⟩
  · exact ⟨by decide, by decide⟩

/-- A condition or the header of a loop: one line, in which a colon outside brackets is that of `:=`. -/
structure IsHeader (t : Text) : Prop where
  nonempty : t ≠ []
  trimmed : trim t = t
  oneLine : '\n' ∉ t
  closed : Closed t
  oneColon : OneColon t

/-- A code line that begins with no blank, with its trimmed text. -/
theorem IsCodeLine.trim_self {l : Text} (h : IsCodeLine l) {c : Char} (hhead : l.head? = some c)
    (hblank : isBlank c = false) : trim l = l := by
  refine trim_eq_self_iff.2 ⟨fun x hx => ?_, fun x hx => ?_⟩
  · rw [hhead, Option.some.injEq] at hx
    exact hx ▸ hblank
  · obtain ⟨d, hd, hlast⟩ := h.last
    rw [hd, Option.some.injEq] at hx
    exact hx ▸ hlast

/-- A code line after a closed text of one line. -/
theorem IsCodeLine.append {a l : Text} (h : IsCodeLine l) (ha : Closed a) (hfeed : '\n' ∉ a)
    (hnext : Fresh a.getLast? ∨ l.head? ≠ some '\'') : IsCodeLine (a ++ l) where
  toIsLine := h.toIsLine.append hfeed
  closed := ha.append h.closed hnext
  unescaped := by
    obtain ⟨c, hc, -⟩ := h.last
    rw [getLast?_append_some hc, ← hc]
    exact h.unescaped

theorem IsCodeLine.indent {l : Text} (h : IsCodeLine l) (n : Nat) : IsCodeLine (indent n l) := by
  have hspaces : Closed (List.replicate n ' ') := closed_of_plain fun c hc => by
    rw [List.eq_of_mem_replicate hc]
    decide
  have hfeed : '\n' ∉ List.replicate n ' ' := fun hc => absurd (List.eq_of_mem_replicate hc) (by decide)
  refine h.append hspaces hfeed (.inl ?_)
  cases n with
  | zero => decide
  | succ n => rw [List.getLast?_replicate, if_neg (by omega)]; decide

/-- A text of one line that leaves nothing open. -/
theorem isCodeLine_of_trimmed {t : Text} (hne : t ≠ []) (htrim : trim t = t) (hfeed : '\n' ∉ t)
    (hclosed : Closed t) (hescape : t.getLast? ≠ some '\\') : IsCodeLine t where
  noFeed := hfeed
  last := by
    obtain ⟨c, hc⟩ := Option.isSome_iff_exists.1 (List.getLast?_isSome.2 hne)
    exact ⟨c, hc, (trim_eq_self_iff.1 htrim).2 c hc⟩
  closed := hclosed
  unescaped := hescape

theorem isCodeLine_colonLine {word header : Text} (hword : IsWord word) (h : IsHeader header) :
    IsCodeLine (colonLine word header) := by
  have hcolon : IsCodeLine [':'] := ⟨⟨by decide, ':', rfl, by decide⟩, by decide, by decide⟩
  have hheader : IsCodeLine ([' '] ++ (header ++ [':'])) :=
    (hcolon.append h.closed h.oneLine (.inr (by simp))).append (by decide) (by decide) (.inl (by decide))
  have hplain : Closed word := closed_of_plain fun c hc => (hword.plain c hc).1
  exact hheader.append hplain (fun hc => (hword.plain _ hc).2 rfl) (.inl hword.fresh)

theorem begins_colonLine (w : Keyword) {header : Text} (h : IsHeader header) :
    Begins (colonLine w.text header) := by
  have hcode := isCodeLine_colonLine w.isWord h
  rcases w with _ | (_ | _)
  all_goals
    have htrim := hcode.trim_self rfl (by decide)
    exact ⟨rfl, by rw [htrim]; rfl, by rw [htrim]; simp [colonLine, Keyword.text, LoopWord.text]⟩

/-- A compound statement begins with its keyword. -/
theorem exists_join_colonLine (word header : Text) (ls : List Text) :
    ∃ u, join ['\n'] (colonLine word header :: ls) = word ++ ' ' :: u := by
  obtain ⟨u, hu⟩ := exists_join_cons ['\n'] (colonLine word header) ls
  exact ⟨header ++ ':' :: u, by rw [hu]; simp [colonLine]⟩

/-- A line that goes on with the statement before it and leaves nothing open. -/
structure GoesOn (l : Text) : Prop extends IsCodeLine l where
  continues : Continues l

/-- A keyword and a header begin a statement, which has the lines that go on with them. -/
theorem isStatement_colonLine (w : Keyword) {header : Text} (h : IsHeader header) {rest : List Text}
    (hrest : ∀ l ∈ rest, GoesOn l) : IsStatement (colonLine w.text header :: rest) where
  lines l hl := by
    rcases List.mem_cons.1 hl with rfl | hl
    · exact isCodeLine_colonLine w.isWord h
    · exact (hrest l hl).toIsCodeLine
  begins := ⟨_, _, rfl, begins_colonLine w h, fun l hl => (hrest l hl).continues⟩
  notPass := by
    obtain ⟨u, hu⟩ := exists_join_colonLine w.text header rest
    rw [hu]
    rcases w with _ | (_ | _) <;> exact fun he => absurd (List.cons.inj he).1 (by decide)

theorem goesOn_elif {header : Text} (h : IsHeader header) : GoesOn (colonLine "elif".toList header) := by
  have hword : IsWord "elif".toList := ⟨by decide, by decide⟩
  have hcode := isCodeLine_colonLine hword h
  have htrim := hcode.trim_self rfl (by decide)
  exact ⟨hcode, .inr (by rw [htrim]; rfl)⟩

theorem goesOn_else : GoesOn "else:".toList where
  toIsCodeLine := ⟨⟨by decide, ':', by decide, by decide⟩, by decide, by decide⟩
  continues := .inr (by decide)

/-- The lines of a statement go on with a header that they are set in below. -/
theorem IsStatement.goesOn {ls : List Text} (h : IsStatement ls) (n : Nat) :
    ∀ l ∈ ls.map (indent (n + 1)), GoesOn l := by
  intro l hl
  obtain ⟨m, hm, rfl⟩ := List.mem_map.1 hl
  exact ⟨(h.lines m hm).indent (n + 1), .inl rfl⟩

/-! ## Shapes of compound statements -/

/-- The lines of the statements of a suite below its header. -/
def setIn (n : Nat) (blocks : List (List Text)) : List Text := blocks.flatten.map (indent (n + 1))

theorem goesOn_setIn {blocks : List (List Text)} (h : ∀ b ∈ blocks, IsStatement b) (n : Nat) :
    ∀ l ∈ setIn n blocks, GoesOn l := by
  intro l hl
  obtain ⟨m, hm, rfl⟩ := List.mem_map.1 hl
  obtain ⟨b, hb, hm⟩ := List.mem_flatten.1 hm
  exact (h b hb).goesOn n _ (List.mem_map_of_mem hm)

theorem setIn_ne_nil {blocks : List (List Text)} (hne : blocks ≠ []) (h : ∀ b ∈ blocks, IsStatement b)
    (n : Nat) : setIn n blocks ≠ [] := by
  obtain ⟨b, bs, rfl⟩ := List.exists_cons_of_ne_nil hne
  simp [setIn, (h b (by simp)).ne_nil]

/-- **A clause gives back** its header, the statements of its suite and the lines after it. -/
theorem clause?_suite {word head : Text} (hword : IsWord word) (hhead : Closed head) (hcolon : OneColon head)
    {blocks : List (List Text)} (hne : blocks ≠ []) (h : ∀ b ∈ blocks, IsStatement b) {after : List Text}
    (hafter : ∀ l ∈ after, IsLine l) (hflush : ∀ l, after.head? = some l → startsBlank l = false) (n : Nat) :
    clause? (word ++ (head ++ ':' :: '\n' :: join ['\n'] (setIn n blocks ++ after))) word.length =
      some ⟨trim head, blocks.map (join ['\n']), join ['\n'] after⟩ := by
  have hbelow : ∀ l ∈ setIn n blocks, IsLine l ∧ startsBlank l = true := by
    intro l hl
    refine ⟨(goesOn_setIn h n l hl).toIsLine, ?_⟩
    obtain ⟨m, -, rfl⟩ := List.mem_map.1 hl
    rfl
  rw [clause?_below (fun c hc => (hword.plain c hc).1) hword.fresh hhead hcolon (setIn_ne_nil hne h n) hbelow
    hafter hflush, setIn, splitBlock_statements hne h]

theorem closed_cons_space {t : Text} (h : Closed t) : Closed (' ' :: t) := by
  have hspace : Closed [' '] := by decide
  exact hspace.append h (.inl (by decide))

theorem oneColon_cons_space {t : Text} (h : OneColon t) : OneColon (' ' :: t) := by
  have hscan : scan (' ' :: t) = ⟨' ', some 0⟩ :: scan t := by
    rw [← scanFrom_fresh (p := some ' ') (by decide) t]
    rfl
  intro i hi
  rw [hscan] at hi
  cases i with
  | zero => cases hi
  | succ i => exact h i hi

/-- A header line and a suite, read as a clause. -/
theorem clause?_colonLine {word header : Text} (hword : IsWord word) (h : IsHeader header)
    {blocks : List (List Text)} (hne : blocks ≠ []) (hblocks : ∀ b ∈ blocks, IsStatement b) {after : List Text}
    (hafter : ∀ l ∈ after, IsLine l) (hflush : ∀ l, after.head? = some l → startsBlank l = false) (n : Nat) :
    clause? (join ['\n'] (colonLine word header :: (setIn n blocks ++ after))) word.length =
      some ⟨header, blocks.map (join ['\n']), join ['\n'] after⟩ := by
  have hlines : setIn n blocks ++ after ≠ [] :=
    List.append_ne_nil_of_left_ne_nil (setIn_ne_nil hne hblocks n) _
  have htext : join ['\n'] (colonLine word header :: (setIn n blocks ++ after)) =
      word ++ ((' ' :: header) ++ ':' :: '\n' :: join ['\n'] (setIn n blocks ++ after)) := by
    rw [join_cons ['\n'] _ hlines]
    simp [colonLine]
  rw [htext, clause?_suite hword (closed_cons_space h.closed) (oneColon_cons_space h.oneColon) hne hblocks hafter
    hflush, trim_cons_space h.trimmed]

/-- What the text after the first clause of a conditional gives for its other branch. -/
def otherwiseOf (rest : Text) : Option (List Text) :=
  ((dropPrefix? "elif".toList rest).map fun tail => ["if".toList ++ tail]).or
    (if beginsWithWord rest "else".toList then (clause? rest 4).map Clause.body else none)

theorem conditional_eq {t : Text} {c : Clause} (h : clause? t 2 = some c) :
    conditional t = .conditional c.header c.body (otherwiseOf (stripLeading '\n' c.rest)) := by
  simp only [conditional, h, otherwiseOf]
  cases dropPrefix? "elif".toList (stripLeading '\n' c.rest) <;> rfl

/-- **The shape of a conditional** shows its condition, its suite and what goes on with it. -/
theorem decompose_if {c : Text} (hc : IsHeader c) {yes : List (List Text)} (hne : yes ≠ [])
    (hyes : ∀ b ∈ yes, IsStatement b) {after : List Text} (hafter : ∀ l ∈ after, GoesOn l)
    (hflush : ∀ l, after.head? = some l → startsBlank l = false) (n : Nat) :
    decompose (join ['\n'] (colonLine "if".toList c :: (setIn n yes ++ after))) =
      .conditional c (yes.map (join ['\n'])) (otherwiseOf (stripLeading '\n' (join ['\n'] after))) := by
  have hlines : ∀ l ∈ setIn n yes ++ after, GoesOn l := fun l hl =>
    (List.mem_append.1 hl).elim (goesOn_setIn hyes n l) (hafter l)
  have htrim := trim_statement (isStatement_colonLine .choice hc hlines)
  have hclause := clause?_colonLine Keyword.choice.isWord hc hne hyes (fun l hl => (hafter l hl).toIsLine)
    hflush n
  have hif : beginsWithWord (join ['\n'] (colonLine "if".toList c :: (setIn n yes ++ after))) "if".toList =
      true := by
    obtain ⟨u, hu⟩ := exists_join_colonLine "if".toList c (setIn n yes ++ after)
    rw [hu]
    rfl
  simp only [Keyword.text] at htrim hclause
  simp only [decompose, htrim, hif, if_true]
  exact conditional_eq hclause

/-- A further condition is read as a conditional of its own. -/
theorem otherwiseOf_elif (c : Text) (ls : List Text) :
    otherwiseOf (stripLeading '\n' (join ['\n'] (colonLine "elif".toList c :: ls))) =
      some [join ['\n'] (colonLine "if".toList c :: ls)] := by
  have hword (w : Text) : join ['\n'] (colonLine w c :: ls) = w ++ join ['\n'] ((' ' :: (c ++ [':'])) :: ls) :=
    join_append_cons _ _ _ _
  rw [hword, hword]
  rfl

/-- The last branch is read as a clause without a header. -/
theorem otherwiseOf_else {no : List (List Text)} (hne : no ≠ []) (hno : ∀ b ∈ no, IsStatement b) (n : Nat) :
    otherwiseOf (stripLeading '\n' (join ['\n'] ("else:".toList :: setIn n no))) =
      some (no.map (join ['\n'])) := by
  have htext : join ['\n'] ("else:".toList :: setIn n no) =
      "else".toList ++ ([] ++ ':' :: '\n' :: join ['\n'] (setIn n no ++ [])) := by
    rw [join_cons ['\n'] _ (setIn_ne_nil hne hno n), List.append_nil]
    rfl
  have hword : IsWord "else".toList := ⟨by decide, by decide⟩
  have hclause : clause? ("else".toList ++ ([] ++ ':' :: '\n' :: join ['\n'] (setIn n no ++ []))) 4 =
      some ⟨[], no.map (join ['\n']), []⟩ :=
    clause?_suite hword closed_nil (by decide) hne hno (by simp) (by simp) n
  have hother : otherwiseOf (stripLeading '\n' (join ['\n'] ("else:".toList :: setIn n no))) =
      (clause? ("else".toList ++ ([] ++ ':' :: '\n' :: join ['\n'] (setIn n no ++ []))) 4).map Clause.body := by
    rw [htext]
    rfl
  rw [hother, hclause]
  rfl

/-- What begins with the word of a loop is read as one. -/
theorem decompose_looping {w : LoopWord} {v : Text} {c : Clause} (htrim : trim (w.text ++ v) = w.text ++ v)
    (hword : beginsWithWord (w.text ++ v) w.text = true)
    (hclause : clause? (w.text ++ v) w.text.length = some c) :
    decompose (w.text ++ v) = .loop c.header c.body := by
  cases w with
  | whilst =>
    have hif : beginsWithWord (LoopWord.whilst.text ++ v) "if".toList = false := rfl
    have hfor : beginsWithWord (LoopWord.whilst.text ++ v) "for".toList = false := rfl
    have hwhile : beginsWithWord (LoopWord.whilst.text ++ v) "while".toList = true := hword
    have hlength : LoopWord.whilst.text.length = 5 := rfl
    rw [hlength] at hclause
    simp only [decompose, htrim, hif, hfor, hwhile, looping, hclause]
    rfl
  | each =>
    have hif : beginsWithWord (LoopWord.each.text ++ v) "if".toList = false := rfl
    have hfor : beginsWithWord (LoopWord.each.text ++ v) "for".toList = true := hword
    have hlength : LoopWord.each.text.length = 3 := rfl
    rw [hlength] at hclause
    simp only [decompose, htrim, hif, hfor, looping, hclause]
    rfl

/-- **The shape of a loop** shows its header and its suite. -/
theorem decompose_loopWord (w : LoopWord) {header : Text} (h : IsHeader header) {body : List (List Text)}
    (hne : body ≠ []) (hbody : ∀ b ∈ body, IsStatement b) (n : Nat) :
    decompose (join ['\n'] (colonLine w.text header :: setIn n body)) =
      .loop header (body.map (join ['\n'])) := by
  obtain ⟨u, hu⟩ := exists_join_colonLine w.text header (setIn n body)
  have htrim := trim_statement (isStatement_colonLine (.loop w) h (goesOn_setIn hbody n))
  have hclause := clause?_colonLine (Keyword.loop w).isWord h hne hbody (List.forall_mem_nil _) (by simp) n
  have hword : beginsWithWord (w.text ++ ' ' :: u) w.text = true := by cases w <;> rfl
  rw [List.append_nil] at hclause
  simp only [Keyword.text] at htrim hclause
  rw [hu] at htrim hclause ⊢
  exact decompose_looping htrim hword hclause

/-! ## Shapes without suites -/

/-- A shape that is neither a conditional nor a loop. -/
structure IsFlat (s : Shape) : Prop where
  not_conditional : ∀ c yes otherwise, s ≠ .conditional c yes otherwise
  not_loop : ∀ range body, s ≠ .loop range body

theorem IsFlat.ite {c : Prop} [Decidable c] {s s' : Shape} (h : IsFlat s) (h' : IsFlat s') :
    IsFlat (if c then s else s') := by
  by_cases hc : c
  · rwa [if_pos hc]
  · rwa [if_neg hc]

/-- A statement that no keyword begins has no suite. -/
theorem decompose_flat {t : Text} (htrim : trim t = t) (hword : ∀ w : Keyword, beginsWithWord t w.text = false)
    (hasync : dropPrefix? "async for ".toList t = none) : IsFlat (decompose t) := by
  have hif : beginsWithWord t "if".toList = false := hword .choice
  have hfor : beginsWithWord t "for".toList = false := hword (.loop .each)
  have hwhile : beginsWithWord t "while".toList = false := hword (.loop .whilst)
  simp only [decompose, htrim, hif, hfor, hwhile, hasync, Bool.false_eq_true, if_false]
  refine .ite ⟨by simp, by simp⟩ ?_
  cases dropPrefix? "return ".toList t with
  | some value => exact ⟨by simp, by simp⟩
  | none =>
    refine .ite ⟨by simp, by simp⟩ ?_
    cases dropPrefix? "raise ".toList t with
    | some error => exact ⟨by simp, by simp⟩
    | none =>
      cases assignment? t with
      | some parts => exact ⟨by simp [assignmentShape], by simp [assignmentShape]⟩
      | none => exact .ite ⟨by simp, by simp⟩ ⟨by simp, by simp⟩

end Concord.Statement.Indented
