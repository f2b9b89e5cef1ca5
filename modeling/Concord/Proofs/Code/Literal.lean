/-
Texts without code. A literal ends at the first bare occurrence of its quote, and where another one
begins right there a scan finds no code between them. So a text has no code exactly if it is a row of
literals, of which the last one may be left open (`depth_scanFrom_iff`).
-/
import Concord.Proofs.Code.Closed

namespace Concord.Code

open Text

/-! ## Bare quotes -/

/-- Whether `q` occurs in a text without a backslash that hides it. -/
def isBare (q : Char) : Text → Bool
  | [] => false
  | '\\' :: _ :: t => isBare q t
  | c :: t => c == q || isBare q t

/-- Whether a text ends with a backslash that hides what follows. -/
def hangs : Text → Bool
  | [] => false
  | ['\\'] => true
  | '\\' :: _ :: t => hangs t
  | _ :: t => hangs t

section

variable {q c : Char}

theorem isBare_cons (hc : c ≠ '\\') (t : Text) : isBare q (c :: t) = (c == q || isBare q t) := by
  rw [isBare]
  exact fun _ _ h => absurd h hc

theorem hangs_cons (hc : c ≠ '\\') (t : Text) : hangs (c :: t) = hangs t := by
  rw [hangs]
  · exact fun h => absurd h hc
  · exact fun _ _ h => absurd h hc

/-- What is not the first of a hiding pair is no backslash. -/
theorem ne_backslash {t : Text} (hlast : c = '\\' → t = [] → False)
    (hnext : ∀ d u, c = '\\' → t = d :: u → False) : c ≠ '\\' := by
  intro hc
  cases t with
  | nil => exact hlast hc rfl
  | cons d u => exact hnext d u hc rfl

theorem isBare_append {u : Text} (hu : hangs u = false) (v : Text) :
    isBare q (u ++ v) = (isBare q u || isBare q v) := by
  fun_induction hangs u with
  | case1 => rfl
  | case2 => cases hu
  | case3 c u ih => exact ih hu
  | case4 c u hlast hnext ih =>
    have hc := ne_backslash hlast hnext
    rw [List.cons_append, isBare_cons hc, isBare_cons hc, ih hu, Bool.or_assoc]

/-- The backslash at the end of a text hides the next character. -/
theorem isBare_concat {t : Text} (ht : hangs t = true) (h : isBare q t = false) (d : Char) :
    isBare q (t ++ [d]) = false := by
  fun_induction hangs t with
  | case1 => cases ht
  | case2 => rfl
  | case3 c t ih => exact ih ht h
  | case4 c t hlast hnext ih =>
    have hc := ne_backslash hlast hnext
    rw [isBare_cons hc, Bool.or_eq_false_iff] at h
    rw [List.cons_append, isBare_cons hc, h.1, ih ht h.2, Bool.or_false]

theorem ne_backslash_of_isQuote (hq : isQuote q = true) : q ≠ '\\' := by
  rintro rfl
  cases hq

/-- The first bare occurrence of a quote. -/
theorem exists_of_isBare {t : Text} (h : isBare q t = true) :
    ∃ u v, t = u ++ q :: v ∧ isBare q u = false ∧ hangs u = false := by
  fun_induction isBare q t with
  | case1 => cases h
  | case2 c t ih =>
    obtain ⟨u, v, rfl, hbare, hhangs⟩ := ih h
    exact ⟨'\\' :: c :: u, v, rfl, hbare, hhangs⟩
  | case3 c t hnext ih =>
    by_cases hcq : c = q
    · exact ⟨[], t, by rw [hcq, List.nil_append], rfl, rfl⟩
    have hrest : isBare q t = true := by simpa [hcq] using h
    have hc : c ≠ '\\' := ne_backslash (fun _ ht => by rw [ht] at hrest; cases hrest) hnext
    obtain ⟨u, v, rfl, hbare, hhangs⟩ := ih hrest
    exact ⟨c :: u, v, rfl, by simp [isBare_cons hc, hcq, hbare], by rw [hangs_cons hc, hhangs]⟩

end

/-! ## Rows of literals -/

/-- A whole literal. -/
structure Quoted where
  quote : Char
  content : Text
  isQuote : Code.isQuote quote = true
  notBare : isBare quote content = false
  notHangs : hangs content = false

def Quoted.text (l : Quoted) : Text := l.quote :: (l.content ++ [l.quote])

/-- Literals with nothing between them. -/
def row (ls : List Quoted) : Text := ls.flatMap Quoted.text

/-- A literal that is not closed. -/
def Unclosed (t : Text) : Prop := ∃ q s, isQuote q = true ∧ isBare q s = false ∧ t = q :: s

/-- A row of literals, of which the last one may be left open. -/
def Adjoined (t : Text) : Prop := ∃ ls rest, (rest = [] ∨ Unclosed rest) ∧ t = row ls ++ rest

theorem adjoined_row (ls : List Quoted) : Adjoined (row ls) := ⟨ls, [], .inl rfl, by rw [List.append_nil]⟩

theorem Adjoined.cons {t : Text} (h : Adjoined t) (l : Quoted) : Adjoined (l.text ++ t) := by
  obtain ⟨ls, rest, hrest, rfl⟩ := h
  exact ⟨l :: ls, rest, hrest, by simp [row]⟩

/-- What begins with a quote is a literal and something after it, or a literal that is not closed. -/
theorem quoted_cases {q : Char} (hq : isQuote q = true) (t : Text) :
    Unclosed (q :: t) ∨ ∃ (l : Quoted) (v : Text), q :: t = l.text ++ v := by
  cases h : isBare q t with
  | false => exact .inl ⟨q, t, hq, h, rfl⟩
  | true =>
    obtain ⟨u, v, rfl, hbare, hhangs⟩ := exists_of_isBare h
    exact .inr ⟨⟨q, u, hq, hbare, hhangs⟩, v, by simp [Quoted.text]⟩

/-- A row goes on with one more quote, which closes the last literal or opens another. -/
theorem Adjoined.concat {t : Text} (h : Adjoined t) {q : Char} (hq : isQuote q = true) : Adjoined (t ++ [q]) := by
  obtain ⟨ls, rest, rfl | ⟨r, s, hr, hbare, rfl⟩, rfl⟩ := h
  · exact ⟨ls, [q], .inr ⟨q, [], hq, rfl, rfl⟩, by rw [List.append_nil]⟩
  · rw [List.append_assoc, List.cons_append]
    cases hhangs : hangs s with
    | true => exact ⟨ls, r :: (s ++ [q]), .inr ⟨r, s ++ [q], hr, isBare_concat hhangs hbare q, rfl⟩, rfl⟩
    | false =>
      by_cases hqr : q = r
      · subst hqr
        exact ⟨ls ++ [⟨q, s, hr, hbare, hhangs⟩], [], .inl rfl, by simp [row, Quoted.text]⟩
      · have hopen : isBare r (s ++ [q]) = false := by
          rw [isBare_append hhangs, hbare, isBare_cons (ne_backslash_of_isQuote hq)]
          simp [hqr, isBare]
        exact ⟨ls, r :: (s ++ [q]), .inr ⟨r, s ++ [q], hr, hopen, rfl⟩, rfl⟩

/-! ## Scans -/

theorem fresh_of_isQuote {q : Char} (hq : isQuote q = true) : Fresh (some q) := by
  simp only [isQuote, Bool.or_eq_true, beq_iff_eq] at hq
  rcases hq with (rfl | rfl) | rfl <;> decide

theorem Cursor.opens_of_isQuote {q : Char} (hq : isQuote q = true) {p : Option Char} (hp : Fresh p) (d : Nat) :
    (code d p).opens q = true := by
  rw [opens_fresh hp]
  simp only [isQuote, Bool.or_eq_true, beq_iff_eq] at hq
  rcases hq with (rfl | rfl) | rfl <;> rfl

/-- Inside a literal a text without its bare quote is read to its end, and none of it is code. -/
theorem Cursor.after_quoted {q : Char} {t : Text} (h : isBare q t = false) (d : Nat) (p : Option Char) :
    (∃ p', Cursor.after ⟨d, some q, false, p⟩ t = ⟨d, some q, hangs t, p'⟩) ∧
      ∀ cell ∈ scanFrom ⟨d, some q, false, p⟩ t, cell.depth = none := by
  fun_induction hangs t generalizing p with
  | case1 => exact ⟨⟨p, rfl⟩, by simp [scanFrom]⟩
  | case2 => exact ⟨⟨some '\\', rfl⟩, by simp [scanFrom, cell]⟩
  | case3 c t ih =>
    obtain ⟨hafter, hdepth⟩ := ih h (some c)
    have hhide : Cursor.next ⟨d, some q, false, p⟩ '\\' = ⟨d, some q, true, some '\\'⟩ := rfl
    have hstep : Cursor.next ⟨d, some q, true, some '\\'⟩ c = ⟨d, some q, false, some c⟩ := rfl
    rw [Cursor.after, List.foldl_cons, List.foldl_cons, scanFrom, scanFrom, hhide, hstep]
    refine ⟨hafter, ?_⟩
    simpa [cell] using hdepth
  | case4 c t hlast hnext ih =>
    have hc := ne_backslash hlast hnext
    rw [isBare_cons hc, Bool.or_eq_false_iff] at h
    have hstep : Cursor.next ⟨d, some q, false, p⟩ c = ⟨d, some q, false, some c⟩ := by
      simp [Cursor.next, hc, h.1]
    obtain ⟨hafter, hdepth⟩ := ih h.2 (some c)
    rw [Cursor.after, List.foldl_cons, scanFrom, hstep]
    refine ⟨hafter, ?_⟩
    simpa [cell] using hdepth

/-- A literal is opened by its quote. -/
theorem Cursor.code_quote {q : Char} (hq : isQuote q = true) {p : Option Char} (hp : Fresh p) (d : Nat) :
    (code d p).next q = ⟨d, some q, false, some q⟩ ∧ (code d p).cell q = ⟨q, none⟩ := by
  have hopens := opens_of_isQuote hq hp d
  simp [next, cell, hopens]

theorem depth_unclosed {t : Text} (h : Unclosed t) {p : Option Char} (hp : Fresh p) (d : Nat) :
    ∀ cell ∈ scanFrom (.code d p) t, cell.depth = none := by
  obtain ⟨q, s, hq, hbare, rfl⟩ := h
  obtain ⟨hnext, hcell⟩ := Cursor.code_quote hq hp d
  rw [scanFrom, hnext, hcell]
  simpa using (Cursor.after_quoted hbare d (some q)).2

/-- After a literal there is code again, and none in it. -/
theorem Quoted.after_code (l : Quoted) {p : Option Char} (hp : Fresh p) (d : Nat) :
    (Cursor.code d p).after l.text = .code d (some l.quote) ∧
      ∀ cell ∈ scanFrom (.code d p) l.text, cell.depth = none := by
  obtain ⟨hnext, hcell⟩ := Cursor.code_quote l.isQuote hp d
  obtain ⟨⟨p', hafter⟩, hdepth⟩ := Cursor.after_quoted l.notBare d (some l.quote)
  rw [l.notHangs] at hafter
  have hne := ne_backslash_of_isQuote l.isQuote
  constructor
  · rw [Quoted.text, Cursor.after, List.foldl_cons, hnext, List.foldl_append]
    refine (congrArg (List.foldl Cursor.next · [l.quote]) hafter).trans ?_
    simp [Cursor.next, hne]
  · rw [Quoted.text, scanFrom, hnext, hcell, scanFrom_append, hafter]
    simpa [or_imp, forall_and, scanFrom, Cursor.cell] using hdepth

theorem depth_of_adjoined {t : Text} (h : Adjoined t) {p : Option Char} (hp : Fresh p) (d : Nat) :
    ∀ cell ∈ scanFrom (.code d p) t, cell.depth = none := by
  obtain ⟨ls, rest, hrest, rfl⟩ := h
  induction ls generalizing p with
  | nil =>
    rcases hrest with rfl | hrest
    · intro cell hcell
      cases hcell
    · exact depth_unclosed hrest hp d
  | cons l ls ih =>
    obtain ⟨hafter, hdepth⟩ := l.after_code hp d
    have hrow : row (l :: ls) ++ rest = l.text ++ (row ls ++ rest) := by simp [row]
    rw [hrow, scanFrom_append, hafter]
    intro cell hcell
    rcases List.mem_append.1 hcell with hcell | hcell
    · exact hdepth cell hcell
    · exact ih (fresh_of_isQuote l.isQuote) cell hcell

/-- **A text has no code exactly if it is a row of literals, of which the last one may be left open.** -/
theorem depth_scanFrom_iff {t : Text} {p : Option Char} (hp : Fresh p) (d : Nat) :
    (∀ cell ∈ scanFrom (.code d p) t, cell.depth = none) ↔ Adjoined t := by
  refine ⟨fun h => ?_, fun h => depth_of_adjoined h hp d⟩
  -- the text after the first literal is shorter
  induction hn : t.length using Nat.strongRecOn generalizing t p with
  | ind n ih =>
    cases t with
    | nil => exact adjoined_row []
    | cons c t =>
      have hopens : (Cursor.code d p).opens c = true := by
        have hcell := h _ List.mem_cons_self
        cases hcode : (Cursor.code d p).opens c with
        | true => rfl
        | false =>
          simp only [Cursor.cell, hcode, Bool.false_eq_true, if_false] at hcell
          split at hcell <;> cases hcell
      rcases quoted_cases (isQuote_of_opens hopens) t with hunclosed | ⟨l, v, htext⟩
      · exact ⟨[], c :: t, .inr hunclosed, rfl⟩
      · rw [htext, scanFrom_append, (l.after_code hp d).1] at h
        have hlength : v.length < n := by
          rw [← hn, htext]
          simp [Quoted.text]
          omega
        rw [htext]
        refine Adjoined.cons (ih v.length hlength (fresh_of_isQuote l.isQuote) (fun cell hcell => ?_) rfl) l
        exact h cell (List.mem_append_right _ hcell)

/-- One more quote at the end makes no code. -/
theorem adjoined_concat_iff {t : Text} {q : Char} (hq : isQuote q = true) : Adjoined (t ++ [q]) ↔ Adjoined t := by
  refine ⟨fun h => ?_, fun h => h.concat hq⟩
  have hfresh : Fresh none := by decide
  refine (depth_scanFrom_iff hfresh 0).1 fun cell hcell => depth_of_adjoined h hfresh 0 cell ?_
  rw [scanFrom_append]
  exact List.mem_append_left _ hcell

end Concord.Code
