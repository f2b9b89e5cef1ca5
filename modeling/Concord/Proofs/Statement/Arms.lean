/-
Statements whose conditions stand in parentheses and whose arms are blocks or single
statements. Splitting a block keeps such statements whole exactly if `else` follows a block,
a brace that closes in a single arm is the last character of it or has `else` after it, and no
statement after a block begins with the letters of `else` (`splitBlock_commands_iff`).
-/
import Concord.Proofs.Statement.Gather
import Concord.Proofs.Statement.Tree
import Mathlib.Data.List.Chain

namespace Concord.Statement.Braced

open Text Code

/-! ## Statements -/

/-- A statement without arms, without its semicolon. -/
structure Sentence where
  text : Text
  nonempty : text ≠ []
  trimmed : trim text = text
  closed : Closed text
  top : TopAll (· != ';') text

/-- A text in parentheses after a keyword. -/
structure Parens where
  gap : Gap
  inner : Text
  closed : Closed inner

def Parens.text (g : Parens) : Text := g.gap.text ++ '(' :: (g.inner ++ [')'])

mutual

inductive Command where
  | simple (s : Sentence)
  | branch (c : Parens) (yes : Arm)
  | fork (c : Parens) (yes : Arm) (gap : Gap) (no : Arm)
  | loop (w : LoopWord) (c : Parens) (body : Arm)

/-- What a condition is for: a block, whatever stands in it, or one statement. -/
inductive Arm where
  | block (gap : Gap) (inner : Text) (closed : Closed inner)
  | single (gap : Gap) (c : Command)

end

mutual

/-- The semicolon that ends a statement whose last arm is no block. -/
def Command.ending : Command → Text
  | .simple _ => [';']
  | .branch _ yes => yes.ending
  | .fork _ _ _ no => no.ending
  | .loop _ _ body => body.ending

def Arm.ending : Arm → Text
  | .block _ _ _ => []
  | .single _ c => c.ending

end

mutual

/-- The text of a statement but for the semicolon that ends it. -/
def Command.body : Command → Text
  | .simple s => s.text
  | .branch c yes => "if".toList ++ c.text ++ yes.body
  | .fork c yes gap no => "if".toList ++ c.text ++ (yes.body ++ yes.ending) ++ (gap.text ++ "else".toList ++ no.body)
  | .loop w c body => w.text ++ c.text ++ body.body

def Arm.body : Arm → Text
  | .block gap inner _ => gap.text ++ braces inner
  | .single gap c => gap.text ++ c.body

end

/-- Statements, each after its gap, and the gap at the end. -/
def commandsText : List (Gap × Command) → Gap → Text
  | [], last => last.text
  | (gap, c) :: cs, last => gap.text ++ (c.body ++ c.ending ++ commandsText cs last)

/-! ## What keeps statements whole -/

/-- Whether each brace that closes outside brackets is the last character or has `else` after it. -/
def bracesGoOn : List Cell → Bool
  | [] => true
  | cell :: cells =>
    (cell != ⟨'}', some 0⟩ || cells.isEmpty || startsWith (trimStart (cells.map Cell.char)) "else".toList) &&
      bracesGoOn cells

mutual

/-- In an arm every brace but the last one goes on, and `else` follows blocks only. -/
def Command.Kept : Command → Prop
  | .simple s => bracesGoOn (scan s.text) = true
  | .branch _ yes => yes.Kept
  | .fork _ yes _ no => yes.ending = [] ∧ yes.Kept ∧ no.Kept
  | .loop _ _ body => body.Kept

def Arm.Kept : Arm → Prop
  | .block _ _ _ => True
  | .single _ c => c.Kept

end

/-- A statement that does not begin as a block does is free to close braces. -/
def Command.Whole (c : Command) : Prop := startsBlock c.body = true → c.Kept

/-- No statement after a block is taken for another branch of it. -/
def Apart (c d : Command) : Prop := c.ending = [] → startsWith d.body "else".toList = false

/-! ## Statements without arms -/

/-- A character that ends no statement is gathered. -/
theorem gather_step {cell : Cell} {t : Text} (hsemi : cell.isTop = true → (cell.char != ';') = true)
    (hbrace : cell = ⟨'}', some 0⟩ → startsWith (trimStart t) "else".toList = true) (current : Text)
    (cells : List Cell) :
    gather current (cell.char :: t) (cell :: cells) = gather (cell.char :: current) t cells := by
  by_cases hcell : cell = ⟨'}', some 0⟩
  · subst hcell
    exact gather_else (hbrace rfl) cells
  · have hsemi' : (cell.isTop && cell.char == ';') = false := by
      rw [Bool.and_eq_false_imp]
      exact fun htop => beq_eq_false_iff_ne.2 (bne_iff_ne.1 (hsemi htop))
    have hbrace' : (cell.isTop && cell.char == '}') = false := by
      rw [Bool.and_eq_false_imp]
      exact fun htop => beq_eq_false_iff_ne.2 fun hchar => hcell (congrArg₂ Cell.mk hchar (eq_of_beq htop))
    simp only [gather, hsemi', hbrace', Bool.false_and, Bool.false_eq_true, if_false]

/-- Where every brace goes on, all is gathered but a brace at the end. -/
theorem gather_goesOn {cells : List Cell} (hsemi : ∀ cell ∈ cells, cell.isTop = true → (cell.char != ';') = true)
    (h : bracesGoOn cells = true) : ∃ init rest, cells = init ++ rest.map (⟨·, some 0⟩) ∧
      (rest = [] ∨ rest = ['}']) ∧ ∀ current t more, gather current (cells.map Cell.char ++ t) (cells ++ more) =
        gather ((init.map Cell.char).reverse ++ current) (rest ++ t) (rest.map (⟨·, some 0⟩) ++ more) := by
  induction cells with
  | nil => exact ⟨[], [], rfl, .inl rfl, fun _ _ _ => rfl⟩
  | cons cell cells ih =>
    obtain ⟨hhere, hlater⟩ := Bool.and_eq_true_iff.1 h
    by_cases hlast : cell = ⟨'}', some 0⟩ ∧ cells = []
    · obtain ⟨rfl, rfl⟩ := hlast
      exact ⟨[], ['}'], rfl, .inr rfl, fun _ _ _ => rfl⟩
    · obtain ⟨init, rest, hcells, hrest, hwalk⟩ := ih (fun x hx => hsemi x (by simp [hx])) hlater
      refine ⟨cell :: init, rest, by rw [hcells]; rfl, hrest, fun current t more => ?_⟩
      have hbrace : cell = ⟨'}', some 0⟩ →
          startsWith (trimStart (cells.map Cell.char ++ t)) "else".toList = true := by
        intro hcell
        have hne : cells ≠ [] := fun hnil => hlast ⟨hcell, hnil⟩
        exact trimStart_else (by simpa [hcell, hne] using hhere) t
      rw [List.map_cons, List.cons_append, List.cons_append, gather_step (hsemi cell (by simp)) hbrace, hwalk]
      simp

theorem Sentence.runs (s : Sentence) (h : bracesGoOn (scan s.text) = true) :
    RunsTo [] s.text ∨ RunsTo ['}'] s.text := by
  obtain ⟨init, rest, hcells, hrest, hwalk⟩ := gather_goesOn s.top h
  have hchars : (scan s.text).map Cell.char = s.text := map_char_scanFrom _ s.text
  have hruns : RunsTo rest s.text := by
    refine ⟨init.map Cell.char, ?_, fun current tail => ?_⟩
    · have htext := congrArg (List.map Cell.char) hcells
      rw [hchars, List.map_append, List.map_map] at htext
      rw [htext]
      exact congrArg _ (List.map_id rest)
    · have hall := hwalk current tail (scanFrom (.code 0 s.text.getLast?) tail)
      rw [hchars] at hall
      rw [s.closed.scan_append, hall]
  rcases hrest with rfl | rfl
  · exact .inl hruns
  · exact .inr hruns

/-- The first brace that does not go on ends a fragment. -/
theorem gather_breaks {cells : List Cell} (hsemi : ∀ cell ∈ cells, cell.isTop = true → (cell.char != ';') = true)
    (h : bracesGoOn cells = false) : ∃ init rest, cells = init ++ ⟨'}', some 0⟩ :: rest ∧ rest ≠ [] ∧
      ∀ current t more, startsBlock (current.reverse ++ init.map Cell.char) = true → ∃ others,
        gather current (cells.map Cell.char ++ ';' :: t) (cells ++ more) =
          trim (current.reverse ++ (init.map Cell.char ++ ['}'])) :: others := by
  induction cells with
  | nil => cases h
  | cons cell cells ih =>
    rw [bracesGoOn] at h
    cases hhere : cell != ⟨'}', some 0⟩ || cells.isEmpty ||
        startsWith (trimStart (cells.map Cell.char)) "else".toList with
    | false =>
      simp only [Bool.or_eq_false_iff, bne_eq_false_iff_eq, List.isEmpty_eq_false_iff] at hhere
      obtain ⟨⟨rfl, hne⟩, helse⟩ := hhere
      refine ⟨[], cells, rfl, hne, fun current t more hstarts => ?_⟩
      rw [List.map_nil, List.append_nil] at hstarts
      exact ⟨_, gather_closing hstarts (semicolon_notElse helse t) _⟩
    | true =>
      rw [hhere, Bool.true_and] at h
      obtain ⟨init, rest, hcells, hrest, hwalk⟩ := ih (fun x hx => hsemi x (by simp [hx])) h
      have hbrace (t : Text) : cell = ⟨'}', some 0⟩ →
          startsWith (trimStart (cells.map Cell.char ++ t)) "else".toList = true := by
        intro hcell
        exact trimStart_else (by simpa [hcell, hcells] using hhere) t
      refine ⟨cell :: init, rest, by rw [hcells]; rfl, hrest, fun current t more hstarts => ?_⟩
      obtain ⟨others, hothers⟩ := hwalk (cell.char :: current) t more (by simpa using hstarts)
      refine ⟨others, ?_⟩
      rw [List.map_cons, List.cons_append, List.cons_append, gather_step (hsemi cell (by simp)) (hbrace _), hothers]
      simp

/-! ## Parts -/

theorem Parens.exists_text (g : Parens) :
    ∃ x v, g.text = x :: v ∧ (isBlank x || x == '(' || x == '{') = true := by
  obtain ⟨⟨gap, hblank, hreturn⟩, inner, hclosed⟩ := g
  cases gap with
  | nil => exact ⟨'(', inner ++ [')'], rfl, by decide⟩
  | cons x gap => exact ⟨x, gap ++ '(' :: (inner ++ [')']), rfl, by rw [hblank x (by simp)]; rfl⟩

theorem Parens.getLast?_text (g : Parens) : g.text.getLast? = some ')' :=
  getLast?_append_some (getLast?_append_some (a := '(' :: g.inner) rfl)

theorem runsTo_plain {w : Text} (hw : ∀ c ∈ w, isPlain c = true ∧ endsNothing c = true) : RunsTo [] w :=
  runsTo_closed (closed_of_plain fun c hc => (hw c hc).1) (topAll_of_plain hw)

/-- A keyword and its condition end no statement. -/
theorem Parens.runs (g : Parens) {w : Text} (hw : ∀ c ∈ w, isPlain c = true ∧ endsNothing c = true)
    (hfresh : Fresh w.getLast?) : RunsTo [] (w ++ g.text) := by
  have hgroup : RunsTo [] ('(' :: (g.inner ++ [')'])) :=
    runsTo_closed (g.closed.group rfl rfl) (topAll_group rfl rfl g.closed (by decide) (by decide))
  exact (runsTo_plain hw).append hfresh ((runsTo_blank g.gap.blank).append (fresh_of_blank g.gap.blank) hgroup)

theorem Parens.fresh (g : Parens) (w : Text) : Fresh (w ++ g.text).getLast? := by
  rw [getLast?_append_some g.getLast?_text]
  decide

/-- A statement runs to its semicolon or to its last brace. -/
def Runs (body ending : Text) : Prop := RunsTo [] body ∧ ending = [';'] ∨ RunsTo ['}'] body

theorem Runs.prepend {a body ending : Text} (ha : RunsTo [] a) (hfresh : Fresh a.getLast?)
    (h : Runs body ending) : Runs (a ++ body) ending :=
  h.imp (fun h => ⟨ha.append hfresh h.1, h.2⟩) (ha.append hfresh)

theorem Runs.block {body ending : Text} (h : Runs body ending) (hending : ending = []) : RunsTo ['}'] body := by
  rcases h with ⟨-, hsemi⟩ | h
  · rw [hending] at hsemi
    cases hsemi
  · exact h

theorem if_plain : ∀ c ∈ "if".toList, isPlain c = true ∧ endsNothing c = true := by decide

theorem loopWord_plain (w : LoopWord) : ∀ c ∈ w.text, isPlain c = true ∧ endsNothing c = true := by
  cases w <;> decide

theorem loopWord_fresh (w : LoopWord) : Fresh w.text.getLast? := by cases w <;> decide

/-- A condition, its block and `else` end no statement. -/
theorem runsTo_otherwise {body : Text} (hbody : RunsTo ['}'] body) (c : Parens) (gap : Gap) :
    RunsTo [] ("if".toList ++ c.text ++ body ++ (gap.text ++ "else".toList)) := by
  have helse : startsWith (trimStart (gap.text ++ "else".toList)) "else".toList = true := by
    rw [trimStart_append_blank gap.blank]
    rfl
  exact ((c.runs if_plain (by decide)).append (c.fresh _) hbody).goesOn helse
    ((runsTo_blank gap.blank).append (fresh_of_blank gap.blank) (runsTo_plain (by decide)))

theorem fresh_otherwise (t gap : Text) : Fresh (t ++ (gap ++ "else".toList)).getLast? := by
  rw [getLast?_append_some (getLast?_append_some (c := 'e') rfl)]
  decide

theorem fork_body (c : Parens) {yes : Arm} (hending : yes.ending = []) (gap : Gap) (no : Arm) :
    (Command.fork c yes gap no).body =
      "if".toList ++ c.text ++ yes.body ++ (gap.text ++ "else".toList) ++ no.body := by
  show "if".toList ++ c.text ++ (yes.body ++ yes.ending) ++ _ = _
  rw [hending, List.append_nil, ← List.append_assoc _ _ no.body]

mutual

/-- No statement ends inside another one. -/
theorem Command.runs : ∀ c : Command, c.Kept → Runs c.body c.ending
  | .simple s, h => (s.runs h).imp (⟨·, rfl⟩) id
  | .branch c yes, h => (yes.runs h).prepend (c.runs if_plain (by decide)) (c.fresh _)
  | .fork c yes gap no, ⟨hending, hyes, hno⟩ => by
    have hbefore := runsTo_otherwise ((yes.runs hyes).block hending) c gap
    rw [fork_body c hending]
    exact (no.runs hno).prepend hbefore (fresh_otherwise _ _)
  | .loop w c body, h => (body.runs h).prepend (c.runs (loopWord_plain w) (loopWord_fresh w)) (c.fresh _)

theorem Arm.runs : ∀ a : Arm, a.Kept → Runs a.body a.ending
  | .block gap _ closed, _ =>
    .inr ((runsTo_blank gap.blank).append (fresh_of_blank gap.blank) (runsTo_block closed))
  | .single gap c, h => (c.runs h).prepend (runsTo_blank gap.blank) (fresh_of_blank gap.blank)

end

mutual

theorem Command.ending_cases : ∀ c : Command, c.ending = [] ∨ c.ending = [';']
  | .simple _ => .inr rfl
  | .branch _ yes => yes.ending_cases
  | .fork _ _ _ no => no.ending_cases
  | .loop _ _ body => body.ending_cases

theorem Arm.ending_cases : ∀ a : Arm, a.ending = [] ∨ a.ending = [';']
  | .block _ _ _ => .inl rfl
  | .single _ c => c.ending_cases

end

mutual

theorem Command.last : ∀ c : Command, ∃ x, c.body.getLast? = some x ∧ isBlank x = false
  | .simple s => ⟨_, List.getLast?_eq_some_getLast s.nonempty,
      (trim_eq_self_iff.1 s.trimmed).2 _ (List.getLast?_eq_some_getLast s.nonempty)⟩
  | .branch _ yes => by
    obtain ⟨x, hx, hblank⟩ := yes.last
    exact ⟨x, getLast?_append_some hx, hblank⟩
  | .fork _ _ _ no => by
    obtain ⟨x, hx, hblank⟩ := no.last
    exact ⟨x, getLast?_append_some (getLast?_append_some hx), hblank⟩
  | .loop _ _ body => by
    obtain ⟨x, hx, hblank⟩ := body.last
    exact ⟨x, getLast?_append_some hx, hblank⟩

theorem Arm.last : ∀ a : Arm, ∃ x, a.body.getLast? = some x ∧ isBlank x = false
  | .block _ inner _ => ⟨'}', getLast?_append_some (getLast?_braces inner), by decide⟩
  | .single _ c => by
    obtain ⟨x, hx, hblank⟩ := c.last
    exact ⟨x, getLast?_append_some hx, hblank⟩

end

/-- A statement with arms begins with its keyword. -/
theorem Command.cases_body (c : Command) : (∃ s, c = .simple s) ∨
    ∃ w ∈ blockWords, ∃ x v, c.body = w ++ x :: v ∧ (isBlank x || x == '(' || x == '{') = true := by
  have hword (w : Text) (g : Parens) (t : Text) : ∃ x v, w ++ g.text ++ t = w ++ x :: v ∧
      (isBlank x || x == '(' || x == '{') = true := by
    obtain ⟨x, v, hg, hx⟩ := g.exists_text
    exact ⟨x, v ++ t, by rw [hg, List.append_assoc, List.cons_append], hx⟩
  cases c with
  | simple s => exact .inl ⟨s, rfl⟩
  | branch c yes => exact .inr ⟨"if".toList, by decide, hword _ c _⟩
  | fork c yes gap no =>
    refine .inr ⟨"if".toList, by decide, ?_⟩
    obtain ⟨x, v, hv, hx⟩ := hword "if".toList c ((yes.body ++ yes.ending) ++ (gap.text ++ "else".toList ++ no.body))
    exact ⟨x, v, by rw [← hv, ← List.append_assoc]; rfl, hx⟩
  | loop w c body => exact .inr ⟨w.text, by cases w <;> decide, hword _ c _⟩

theorem Command.trimmed (c : Command) : trim c.body = c.body := by
  have hlast : ∀ x, c.body.getLast? = some x → isBlank x = false := by
    intro x hx
    obtain ⟨y, hy, hblank⟩ := c.last
    rw [hy, Option.some.injEq] at hx
    exact hx ▸ hblank
  rcases c.cases_body with ⟨s, rfl⟩ | ⟨w, hw, x, v, hbody, -⟩
  · exact s.trimmed
  · rw [trim, hbody, trimStart_word hw, ← hbody]
    exact trimEnd_of_last hlast

theorem Command.body_ne_nil (c : Command) : c.body ≠ [] := by
  obtain ⟨x, hx, -⟩ := c.last
  rintro hnil
  rw [hnil] at hx
  cases hx

theorem Command.startsBlock_of_ending (c : Command) (h : c.ending = []) : startsBlock c.body = true := by
  rcases c.cases_body with ⟨s, rfl⟩ | ⟨w, hw, x, v, hbody, hx⟩
  · cases h
  · rw [hbody]
    exact startsBlock_word hw hx v

/-! ## Statements that are broken off -/

/-- Where the statement begins a block, the text of it up to the end of `p` is a fragment. -/
structure Breaks (p body ending : Text) : Prop where
  part : p <+: body
  proper : p ≠ body
  last : ∃ x, p.getLast? = some x ∧ isBlank x = false
  mark : '}' ∈ p ∨ ')' ∈ p
  walk : ∀ current tail, startsBlock (current.reverse ++ p) = true → ∃ others,
    gather current (body ++ ending ++ tail) (scan (body ++ ending ++ tail)) = trim (current.reverse ++ p) :: others

theorem Breaks.prepend {a p body ending : Text} (ha : RunsTo [] a) (hfresh : Fresh a.getLast?)
    (h : Breaks p body ending) : Breaks (a ++ p) (a ++ body) ending where
  part := (List.prefix_append_right_inj a).2 h.part
  proper hsame := h.proper (List.append_cancel_left hsame)
  last := by
    obtain ⟨x, hx, hblank⟩ := h.last
    exact ⟨x, getLast?_append_some hx, hblank⟩
  mark := h.mark.imp (List.mem_append_right a) (List.mem_append_right a)
  walk current tail hstarts := by
    obtain ⟨u, hu, hwalk⟩ := ha
    obtain ⟨others, hothers⟩ := h.walk (a.reverse ++ current) tail (by simpa using hstarts)
    rw [List.append_nil] at hu
    refine ⟨others, ?_⟩
    rw [List.append_assoc, List.append_assoc, hwalk, ← hu, List.nil_append, List.map_nil, List.nil_append,
      scanFrom_fresh hfresh, ← List.append_assoc, hothers]
    simp

/-- What follows the statement does not matter. -/
theorem Breaks.append {p body ending : Text} (h : Breaks p body ending) (t ending' : Text) :
    Breaks p (body ++ ending ++ t) ending' where
  part := h.part.trans (by simp)
  proper hsame := h.proper (h.part.eq_of_length_le (by simp [hsame]))
  last := h.last
  mark := h.mark
  walk current tail hstarts := by
    obtain ⟨others, hothers⟩ := h.walk current (t ++ ending' ++ tail) hstarts
    exact ⟨others, by simpa using hothers⟩

/-- A semicolon ends the statement before it, if its last brace does not. -/
theorem Runs.breaks {p : Text} (h : Runs p [';']) (hlast : ∃ x, p.getLast? = some x ∧ isBlank x = false)
    (hmark : '}' ∈ p ∨ ')' ∈ p) (t ending : Text) : Breaks p (p ++ [';'] ++ t) ending where
  part := by simp
  proper := by simp
  last := hlast
  mark := hmark
  walk current tail hstarts := by
    have htext : p ++ [';'] ++ t ++ ending ++ tail = p ++ ';' :: (t ++ ending ++ tail) := by simp
    rw [htext]
    rcases h with ⟨⟨u, hu, hwalk⟩, -⟩ | ⟨u, hu, hwalk⟩
    · rw [List.append_nil] at hu
      refine ⟨gather [] (t ++ ending ++ tail) (scan (t ++ ending ++ tail)), ?_⟩
      rw [hwalk, ← hu, List.nil_append, List.map_nil, List.nil_append, gather_semicolon, List.reverse_append,
        List.reverse_reverse]
    · have hbefore : startsBlock (u.reverse ++ current).reverse = true := by
        rw [hu, ← List.append_assoc] at hstarts
        rw [List.reverse_append, List.reverse_reverse]
        exact startsBlock_of_concat hstarts
      refine ⟨gather [] (';' :: (t ++ ending ++ tail)) (scanFrom (.code 0 p.getLast?) (';' :: (t ++ ending ++ tail))), ?_⟩
      rw [hwalk, List.map_singleton, List.singleton_append, List.singleton_append, gather_closing hbefore rfl, hu]
      simp

theorem Sentence.breaks (s : Sentence) (h : bracesGoOn (scan s.text) = false) : ∃ p, Breaks p s.text [';'] := by
  obtain ⟨init, rest, hcells, hrest, hwalk⟩ := gather_breaks s.top h
  have hchars : (scan s.text).map Cell.char = s.text := map_char_scanFrom _ s.text
  have htext : s.text = init.map Cell.char ++ ['}'] ++ rest.map Cell.char := by
    rw [← hchars, hcells]
    simp
  refine ⟨init.map Cell.char ++ ['}'], by simp [htext], ?_, ⟨'}', getLast?_append_some rfl, by decide⟩, by simp,
    fun current tail hstarts => ?_⟩
  · rw [htext]
    simpa using hrest
  · rw [← List.append_assoc] at hstarts
    obtain ⟨others, hothers⟩ := hwalk current tail (scanFrom (.code 0 s.text.getLast?) (';' :: tail))
      (startsBlock_of_concat hstarts)
    rw [hchars] at hothers
    exact ⟨others, by rw [List.append_assoc, List.singleton_append, s.closed.scan_append, hothers]⟩

mutual

/-- A statement that is not kept is broken off somewhere. -/
theorem Command.breaks : ∀ c : Command, ¬c.Kept → ∃ p, Breaks p c.body c.ending
  | .simple s, h => s.breaks ((Bool.not_eq_true _).mp h)
  | .branch c yes, h => by
    obtain ⟨p, hp⟩ := yes.breaks h
    exact ⟨_, hp.prepend (c.runs if_plain (by decide)) (c.fresh _)⟩
  | .fork c yes gap no, h => by
    by_cases hyes : yes.Kept
    · rcases yes.ending_cases with hending | hending
      · obtain ⟨p, hp⟩ := no.breaks fun hno => h ⟨hending, hyes, hno⟩
        rw [fork_body c hending]
        exact ⟨_, hp.prepend (runsTo_otherwise ((yes.runs hyes).block hending) c gap) (fresh_otherwise _ _)⟩
      · -- a single statement ends with its semicolon, and the conditional with it
        have hbody : (Command.fork c yes gap no).body =
            "if".toList ++ c.text ++ yes.body ++ [';'] ++ (gap.text ++ "else".toList ++ no.body) := by
          show "if".toList ++ c.text ++ (yes.body ++ yes.ending) ++ _ = _
          rw [hending, List.append_assoc _ yes.body]
        have hruns := (yes.runs hyes).prepend (c.runs if_plain (by decide)) (c.fresh _)
        have hmark : ')' ∈ "if".toList ++ c.text ++ yes.body := by simp [Parens.text]
        obtain ⟨x, hx, hblank⟩ := yes.last
        rw [hending] at hruns
        rw [hbody]
        exact ⟨_, hruns.breaks ⟨x, getLast?_append_some hx, hblank⟩ (.inr hmark) _ _⟩
    · obtain ⟨p, hp⟩ := yes.breaks hyes
      have hall := (hp.append (gap.text ++ "else".toList ++ no.body) no.ending).prepend
        (c.runs if_plain (by decide)) (c.fresh _)
      rw [← List.append_assoc] at hall
      exact ⟨_, hall⟩
  | .loop w c body, h => by
    obtain ⟨p, hp⟩ := body.breaks h
    exact ⟨_, hp.prepend (c.runs (loopWord_plain w) (loopWord_fresh w)) (c.fresh _)⟩

theorem Arm.breaks : ∀ a : Arm, ¬a.Kept → ∃ p, Breaks p a.body a.ending
  | .block _ _ _, h => absurd trivial h
  | .single gap c, h => by
    obtain ⟨p, hp⟩ := c.breaks h
    exact ⟨_, hp.prepend (runsTo_blank gap.blank) (fresh_of_blank gap.blank)⟩

end

/-! ## Statements of a block -/

/-- The statements of a text that are not empty. -/
def fragments (current t : Text) : List Text := (gather current t (scan t)).filter fun s => !s.isEmpty

theorem fragments_cons {current t p : Text} {others : List Text} (h : gather current t (scan t) = p :: others)
    (hne : p ≠ []) : fragments current t = p :: others.filter fun s => !s.isEmpty := by
  rw [fragments, h, List.filter_cons_of_pos (by simpa using hne)]

/-- A statement is one fragment, and its semicolon none. -/
theorem Command.fragments_eq (c : Command) (h : c.Whole) {gap : Text} (hgap : ∀ x ∈ gap, isBlank x = true)
    {tail : Text} (helse : c.ending = [] → startsWith (trimStart tail) "else".toList = false) :
    fragments gap.reverse (c.body ++ c.ending ++ tail) = c.body :: fragments [] tail := by
  have hne := c.body_ne_nil
  rw [List.append_assoc]
  by_cases hstarts : startsBlock c.body = true
  · rcases c.runs (h hstarts) with ⟨hruns, hsemi⟩ | hruns
    · rw [hsemi]
      exact fragments_cons (hruns.gather_semicolon c.trimmed hgap tail) hne
    rcases c.ending_cases with hnil | hsemi
    · rw [hnil]
      exact fragments_cons (hruns.gather_eq hstarts c.trimmed hgap (helse hnil)) hne
    · -- the brace ended the statement, and nothing stands between it and the semicolon
      have hnothing : fragments [] (';' :: tail) = fragments [] tail := by
        have hsemicolon : gather [] (';' :: tail) (scan (';' :: tail)) = trim [] :: gather [] tail (scan tail) :=
          gather_semicolon tail
        rw [fragments, hsemicolon, List.filter_cons_of_neg (by decide), fragments]
      rw [hsemi, ← hnothing]
      exact fragments_cons (hruns.gather_eq hstarts c.trimmed hgap rfl) hne
  · rcases c.cases_body with ⟨s, rfl⟩ | ⟨w, hw, x, v, hbody, hx⟩
    · exact fragments_cons (gather_plain s.closed s.top ((Bool.not_eq_true _).mp hstarts) s.trimmed hgap tail) hne
    · rw [hbody] at hstarts
      exact absurd (startsBlock_word hw hx v) hstarts

/-- Where a statement begins that does not look like another branch, none goes on. -/
theorem Command.notElse (d : Command) (h : startsWith d.body "else".toList = false) (t : Text) :
    startsWith (trimStart (d.body ++ d.ending ++ t)) "else".toList = false := by
  rw [List.append_assoc]
  rcases d.cases_body with ⟨s, rfl⟩ | ⟨w, hw, x, v, hbody, -⟩
  · refine semicolon_notElse ?_ t
    rwa [trimStart_of_trimmed (Command.simple s).trimmed]
  · rw [hbody, List.append_assoc]
    exact word_notElse hw _

/-- A statement that is not whole is not the next fragment. -/
theorem Command.fragments_ne (c : Command) (h : ¬c.Whole) {gap : Text} (hgap : ∀ x ∈ gap, isBlank x = true)
    (tail : Text) : ∃ p others, p ≠ c.body ∧ fragments gap.reverse (c.body ++ c.ending ++ tail) = p :: others := by
  obtain ⟨hstarts, hkept⟩ := Classical.not_imp.1 h
  obtain ⟨p, hp⟩ := c.breaks hkept
  obtain ⟨q, hq⟩ := hp.part
  obtain ⟨x, hx, hblank⟩ := hp.last
  have hne : p ≠ [] := by
    rintro rfl
    cases hx
  have htrim : trim p = p := by
    refine trim_eq_self_iff.2 ⟨fun y hy => (trim_eq_self_iff.1 c.trimmed).1 y ?_, fun y hy => ?_⟩
    · rw [← hq, List.head?_append, hy]
      rfl
    · rw [hx, Option.some.injEq] at hy
      exact hy ▸ hblank
  have hbegins : startsBlock (gap.reverse.reverse ++ p) = true := by
    rw [List.reverse_reverse, startsBlock_pad hgap]
    exact startsBlock_of_append htrim hp.mark (hq ▸ hstarts)
  have hpad := trim_pad htrim hgap (v := []) (by simp)
  obtain ⟨others, hothers⟩ := hp.walk gap.reverse tail hbegins
  rw [List.append_nil] at hpad
  rw [List.reverse_reverse, hpad] at hothers
  exact ⟨p, _, hp.proper, fragments_cons hothers hne⟩

/-- Where the letters of `else` follow a block, the fragment goes on past it. -/
theorem Command.fragments_else (c : Command) (hkept : c.Kept) (hending : c.ending = []) {gap : Text}
    (hgap : ∀ x ∈ gap, isBlank x = true) (next : Gap) (t : Text) : ∃ p others, p ≠ c.body ∧
      fragments gap.reverse (c.body ++ (next.text ++ ("else".toList ++ t))) = p :: others := by
  have helse : startsWith (trimStart (next.text ++ "else".toList)) "else".toList = true := by
    rw [trimStart_append_blank next.blank]
    rfl
  obtain ⟨u, hu, hwalk⟩ := ((c.runs hkept).block hending).goesOn helse
    ((runsTo_blank next.blank).append (fresh_of_blank next.blank) (runsTo_plain (by decide)))
  obtain ⟨m, others, hothers⟩ := gather_head (u.reverse ++ gap.reverse) t
    (scanFrom (.code 0 (c.body ++ (next.text ++ "else".toList)).getLast?) t)
  have htext : c.body ++ (next.text ++ ("else".toList ++ t)) = c.body ++ (next.text ++ "else".toList) ++ t := by
    simp only [List.append_assoc]
  have hfirst : trim ((u.reverse ++ gap.reverse).reverse ++ m) =
      c.body ++ trimEnd (next.text ++ "else".toList ++ m) := by
    rw [List.append_nil] at hu
    rw [List.reverse_append, List.reverse_reverse, List.reverse_reverse, ← hu, List.append_assoc, trim,
      trimStart_append_blank hgap, ← trim, List.append_assoc]
    exact trim_append_of_trimmed c.body_ne_nil c.trimmed _
  have hmore : trimEnd (next.text ++ "else".toList ++ m) ≠ [] := trimEnd_ne_nil (c := 'e') (by simp) (by decide)
  have hgather := hwalk gap.reverse t
  rw [List.nil_append, List.map_nil, List.nil_append, hothers, hfirst, ← htext] at hgather
  exact ⟨_, _, by simpa using hmore, fragments_cons hgather (by simp [c.body_ne_nil])⟩

/-- Statements are the fragments of a text exactly if each is whole and apart from the next. -/
theorem fragments_commands (cs : List (Gap × Command)) (last : Gap) :
    fragments [] (commandsText cs last) = (cs.map fun c => c.2.body) ↔
      (∀ c ∈ cs, c.2.Whole) ∧ (cs.map Prod.snd).IsChain Apart := by
  induction cs with
  | nil =>
    rw [commandsText, fragments, gather_blank last.blank]
    simp
  | cons q cs ih =>
    obtain ⟨gap, c⟩ := q
    rw [commandsText, fragments, gather_gap gap.blank, ← fragments, List.map_cons, List.map_cons, List.isChain_cons,
      List.forall_mem_cons]
    by_cases hwhole : c.Whole
    · by_cases hnext : ∀ d ∈ (cs.map Prod.snd).head?, Apart c d
      · have helse : c.ending = [] → startsWith (trimStart (commandsText cs last)) "else".toList = false := by
          intro hending
          cases cs with
          | nil => exact blank_notElse last.blank
          | cons q cs =>
            rw [commandsText, trimStart_append_blank q.1.blank]
            exact q.2.notElse (hnext q.2 rfl hending) _
        rw [c.fragments_eq hwhole gap.blank helse, List.cons_inj_right, ih]
        exact ⟨fun h => ⟨⟨hwhole, h.1⟩, hnext, h.2⟩, fun h => ⟨h.1.2, h.2.2⟩⟩
      · refine iff_of_false (fun hsame => hnext fun d hd hending => ?_) fun h => hnext h.2.1
        cases cs with
        | nil => cases hd
        | cons q cs =>
          cases hd
          rw [← Bool.not_eq_true]
          intro helse
          obtain ⟨v, hv⟩ := startsWith_iff.1 helse
          have hkept : c.Kept := hwhole (c.startsBlock_of_ending hending)
          obtain ⟨p, others, hp, hfragments⟩ :=
            c.fragments_else hkept hending gap.blank q.1 (v ++ (q.2.ending ++ commandsText cs last))
          rw [hending, List.append_nil, commandsText, hv, List.append_assoc, List.append_assoc, hfragments] at hsame
          exact hp (List.head_eq_of_cons_eq hsame)
    · refine iff_of_false (fun hsame => ?_) fun h => hwhole h.1.1
      obtain ⟨p, others, hp, hfragments⟩ := c.fragments_ne hwhole gap.blank (commandsText cs last)
      rw [hfragments] at hsame
      exact hp (List.head_eq_of_cons_eq hsame)

/-- **Splitting a block keeps its statements whole**, each one fragment without its semicolon, exactly if two
conditions hold. In a statement that begins as a block does, `else` follows blocks only and a brace that closes
in a single arm is the last character of it or has `else` after it. And the letters of `else` begin no
statement after a block. -/
theorem splitBlock_commands_iff (cs : List (Gap × Command)) (last : Gap) (htidy : Tidy (commandsText cs last)) :
    splitBlock (commandsText cs last) = (cs.map fun c => c.2.body) ↔
      (∀ c ∈ cs, c.2.Whole) ∧ (cs.map Prod.snd).IsChain Apart := by
  rw [splitBlock_tidy htidy]
  exact fragments_commands cs last

def Gap.space : Gap := ⟨[' '], by decide, by decide⟩

/-- A condition with a space before it. -/
def asked : Parens := ⟨.space, "a".toList, by decide⟩

def plainCall : Command := .simple ⟨"x()".toList, by decide, by decide, by decide, by decide⟩

/-- Arms of both sorts, object literals, and names that begin with the letters of a keyword. -/
def chores : List (Gap × Command) :=
  [(.empty, .fork asked (.block .space "\n x();\n".toList (by decide)) .space (.single .space (.branch asked
      (.single .space (.simple ⟨"y = \x7b c: 1 \x7d".toList, by decide, by decide, by decide, by decide⟩))))),
    (.newLine, .simple ⟨"iffy = \x7b a: 1 \x7d.b".toList, by decide, by decide, by decide, by decide⟩),
    (.newLine, .loop .whilst ⟨.empty, "q".toList, by decide⟩ (.single .newLine plainCall)),
    (.newLine, .loop .each ⟨.space, "let i = 0; i < 3; i++".toList, by decide⟩
      (.block .empty "x();".toList (by decide))),
    (.newLine, .simple ⟨"format(z)".toList, by decide, by decide, by decide, by decide⟩)]

theorem splitBlock_chores : Tidy (commandsText chores .empty) ∧
    splitBlock (commandsText chores .empty) = chores.map (fun c => c.2.body) ∧ (∀ c ∈ chores, c.2.Whole) ∧
    (chores.map Prod.snd).IsChain Apart := by
  have hwhole : ∀ c ∈ chores, c.2.Whole := by
    simp only [chores, List.forall_mem_cons, List.not_mem_nil, false_imp_iff, implies_true, and_true]
    have hobject : bracesGoOn (scan "y = \x7b c: 1 \x7d".toList) = true := by decide
    have hcall : bracesGoOn (scan "x()".toList) = true := by decide
    exact ⟨fun _ => ⟨rfl, trivial, hobject⟩, nofun, fun _ => hcall, fun _ => trivial, nofun⟩
  have hapart : (chores.map Prod.snd).IsChain Apart := by
    simp only [chores, List.map_cons, List.map_nil, List.isChain_cons_cons, List.isChain_singleton, and_true]
    exact ⟨fun _ => rfl, fun _ => rfl, fun _ => rfl, fun _ => rfl⟩
  have htidy : Tidy (commandsText chores .empty) := by decide
  exact ⟨htidy, (splitBlock_commands_iff chores .empty htidy).2 ⟨hwhole, hapart⟩, hwhole, hapart⟩

/-- A single statement before `else`. -/
def cutOff : List (Gap × Command) :=
  [(.empty, .fork asked (.single .space plainCall) .space (.single .space plainCall))]

/-- A name that begins with the letters of `else` after a block. -/
def takenIn : List (Gap × Command) :=
  [(.empty, .branch asked (.block .space "x();".toList (by decide))),
    (.newLine, .simple ⟨"elsewhere()".toList, by decide, by decide, by decide, by decide⟩)]

/-- An object literal that does not end its arm. -/
def castObject : List (Gap × Command) :=
  [(.empty, .branch asked (.single .space
    (.simple ⟨"return \x7b ok: true \x7d as Result".toList, by decide, by decide, by decide, by decide⟩)))]

/-- A name that is a keyword elsewhere, before an object literal. -/
def matchObject : List (Gap × Command) :=
  [(.empty, .simple ⟨"match = \x7b a: 1 \x7d.b".toList, by decide, by decide, by decide, by decide⟩)]

/-- A line of a literal that begins with two slashes. -/
def slashed : List (Gap × Command) :=
  [(.empty, .simple ⟨"x = `\n// b\n`".toList, by decide, by decide, by decide, by decide⟩)]

theorem arms_parted : splitBlock (commandsText cutOff .empty) ≠ cutOff.map (fun c => c.2.body) ∧
    splitBlock (commandsText takenIn .empty) ≠ takenIn.map (fun c => c.2.body) ∧
    splitBlock (commandsText castObject .empty) ≠ castObject.map (fun c => c.2.body) ∧
    splitBlock (commandsText matchObject .empty) ≠ matchObject.map (fun c => c.2.body) ∧
    splitBlock (commandsText slashed .empty) ≠ slashed.map (fun c => c.2.body) := by
  decide

end Concord.Statement.Braced
