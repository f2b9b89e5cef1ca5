/-
Closed texts: those whose literals end and whose brackets match. Wherever a closed
text stands in code, its characters are read as they are on their own, only deeper
(`Closed.scanFrom_code`), and the scan goes on after it as if it had not been there
(`Closed.after_code`).
-/
import Concord.Code.Split

namespace Concord.Code

open Text

/-- A place outside literals. -/
abbrev Cursor.code (depth : Nat) (prev : Option Char) : Cursor := ⟨depth, none, false, prev⟩

/-- Whether `c` closes a bracket that was not opened. -/
def Cursor.sinks (k : Cursor) (c : Char) : Bool :=
  k.quote.isNone && !k.opens c && isClosing c && k.depth == 0

/-- The place after a text in which no bracket closes that was not opened. -/
def Cursor.run? (k : Cursor) : Text → Option Cursor
  | [] => some k
  | c :: t => if k.sinks c then none else (k.next c).run? t

/-- Every literal of the text ends and its brackets match. -/
def Closed (t : Text) : Prop := Cursor.start.run? t = some (.code 0 t.getLast?)

instance (t : Text) : Decidable (Closed t) :=
  inferInstanceAs (Decidable (Cursor.start.run? t = some (.code 0 t.getLast?)))

/-- After this character a single quote opens a literal. -/
def Fresh (prev : Option Char) : Prop := prev ≠ some '&' ∧ prev ≠ some '<'

instance (prev : Option Char) : Decidable (Fresh prev) :=
  inferInstanceAs (Decidable (prev ≠ some '&' ∧ prev ≠ some '<'))

/-- A character that may open and end a literal. -/
def isQuote (c : Char) : Bool := c == '"' || c == '`' || c == '\''

/-- A character that is neither a quote nor a bracket. -/
def isPlain (c : Char) : Bool := !isQuote c && !isOpening c && !isClosing c

/-- The characters that are not plain. -/
def marks : List Char := ['"', '`', '\'', '(', '[', '{', ')', ']', '}']

/-- A class of characters without quotes and brackets has plain characters only. -/
theorem isPlain_of_class {ok : Char → Bool} (hok : ∀ x ∈ marks, ok x = false) {c : Char} (h : ok c = true) :
    isPlain c = true := by
  have hbad : c ∉ marks := fun hmem => by
    rw [hok c hmem] at h
    cases h
  simp only [marks, List.mem_cons, List.not_mem_nil, or_false, not_or] at hbad
  simp [isPlain, isQuote, isOpening, isClosing, hbad]

/-! ## Runs -/

theorem Cursor.run?_append (k : Cursor) (a b : Text) :
    k.run? (a ++ b) = (k.run? a).bind fun l => l.run? b := by
  induction a generalizing k with
  | nil => rfl
  | cons c a ih =>
    simp only [List.cons_append, run?]
    split
    · rfl
    · exact ih _

theorem Cursor.after_of_run? {k l : Cursor} {t : Text} (h : k.run? t = some l) : k.after t = l := by
  induction t generalizing k with
  | nil =>
    simp only [run?, Option.some.injEq] at h
    exact h
  | cons c t ih =>
    simp only [run?] at h
    split at h
    · cases h
    · exact ih h

/-! ## Deeper places -/

/-- The same place with `d` more brackets around it. -/
def Cursor.raise (d : Nat) (k : Cursor) : Cursor := { k with depth := k.depth + d }

/-- The same cell with `d` more brackets around it. -/
def Cell.raise (d : Nat) (c : Cell) : Cell := { c with depth := c.depth.map (· + d) }

@[simp] theorem Cell.raise_zero (c : Cell) : c.raise 0 = c := by simp [Cell.raise]

theorem Cell.isTop_raise (d : Nat) (c : Cell) : (c.raise d).isTop = (d == 0 && c.isTop) := by
  obtain ⟨x, _ | n⟩ := c <;> simp [Cell.raise, Cell.isTop]
  cases d <;> simp

theorem Cursor.next_raise {k : Cursor} {c : Char} (h : k.sinks c = false) (d : Nat) :
    (k.raise d).next c = (k.next c).raise d := by
  obtain ⟨n, _ | q, e, p⟩ := k
  · have hopens : (Cursor.mk (n + d) none e p).opens c = (Cursor.mk n none e p).opens c := rfl
    simp only [sinks] at h
    simp only [next, raise, hopens]
    grind
  · simp only [next, raise]
    grind

theorem Cursor.cell_raise {k : Cursor} {c : Char} (h : k.sinks c = false) (d : Nat) :
    (k.raise d).cell c = (k.cell c).raise d := by
  obtain ⟨n, _ | q, e, p⟩ := k
  · have hopens : (Cursor.mk (n + d) none e p).opens c = (Cursor.mk n none e p).opens c := rfl
    simp only [sinks] at h
    simp only [cell, raise, Cell.raise, hopens]
    grind
  · rfl

/-- A text that closes no bracket from outside is read the same with more brackets around it. -/
theorem Cursor.run?_raise {k l : Cursor} {t : Text} (h : k.run? t = some l) (d : Nat) :
    (k.raise d).run? t = some (l.raise d) ∧
      scanFrom (k.raise d) t = (scanFrom k t).map (Cell.raise d) := by
  induction t generalizing k with
  | nil =>
    simp only [run?, Option.some.injEq] at h
    exact ⟨by rw [h, run?], rfl⟩
  | cons c t ih =>
    simp only [run?] at h
    split at h
    · cases h
    · rename_i hsinks
      have hsinks : k.sinks c = false := by simpa using hsinks
      have hdeep : (k.raise d).sinks c = false := by
        simp only [sinks, raise] at hsinks ⊢
        simp only [Bool.and_eq_false_iff, beq_eq_false_iff_ne] at hsinks ⊢
        rcases hsinks with h' | h'
        · exact .inl h'
        · exact .inr (by omega)
      obtain ⟨hrun, hscan⟩ := ih h
      simp only [run?, scanFrom, hdeep, next_raise hsinks, cell_raise hsinks, List.map_cons]
      exact ⟨hrun, by rw [hscan]⟩

/-! ## Closed texts anywhere -/

/-- What stands before a place counts only for whether a single quote opens a literal there. -/
theorem Cursor.opens_fresh {d : Nat} {p : Option Char} (hp : Fresh p) (c : Char) :
    (Cursor.code d p).opens c = (Cursor.code d none).opens c := by
  have h1 : (p != some '&') = true := by simpa using hp.1
  have h2 : (p != some '<') = true := by simpa using hp.2
  have h3 : ((none : Option Char) != some '&') = true := by decide
  have h4 : ((none : Option Char) != some '<') = true := by decide
  simp only [opens, h1, h2, h3, h4]

theorem Cursor.run?_fresh {d : Nat} {p : Option Char} (hp : Fresh p) {c : Char} (t : Text) :
    (Cursor.code d p).run? (c :: t) = (Cursor.code d none).run? (c :: t) ∧
      scanFrom (.code d p) (c :: t) = scanFrom (.code d none) (c :: t) := by
  have h := opens_fresh (d := d) hp c
  simp only [run?, scanFrom, sinks, next, cell, h, and_self]

theorem scanFrom_fresh {p : Option Char} (hp : Fresh p) (t : Text) : scanFrom (.code 0 p) t = scan t := by
  cases t with
  | nil => rfl
  | cons c t => exact (Cursor.run?_fresh hp t).2

/-- Nothing before a place counts for a text that begins with no single quote. -/
theorem Cursor.run?_unquoted {d : Nat} {p : Option Char} {c : Char} (hc : c ≠ '\'') (t : Text) :
    (Cursor.code d p).run? (c :: t) = (Cursor.code d none).run? (c :: t) ∧
      scanFrom (.code d p) (c :: t) = scanFrom (.code d none) (c :: t) := by
  have hquote : (c == '\'') = false := beq_eq_false_iff_ne.2 hc
  have h : (Cursor.code d p).opens c = (Cursor.code d none).opens c := by
    simp only [opens, hquote, Bool.false_and]
  simp only [run?, scanFrom, sinks, next, cell, h, and_self]

theorem Closed.run?_code {t : Text} (h : Closed t) (d : Nat) {p : Option Char} (hp : Fresh p) :
    (Cursor.code d p).run? t = some (.code d (t.getLast?.or p)) := by
  cases t with
  | nil => rfl
  | cons c t =>
    rw [(Cursor.run?_fresh hp t).1]
    have hraised := (Cursor.run?_raise h d).1
    simp only [Cursor.start, Cursor.raise, Nat.zero_add] at hraised
    rw [hraised]
    simp [List.getLast?_cons]

theorem Closed.after_code {t : Text} (h : Closed t) (d : Nat) {p : Option Char} (hp : Fresh p) :
    (Cursor.code d p).after t = .code d (t.getLast?.or p) :=
  Cursor.after_of_run? (h.run?_code d hp)

theorem Closed.scanFrom_code {t : Text} (h : Closed t) (d : Nat) {p : Option Char} (hp : Fresh p) :
    scanFrom (.code d p) t = (scan t).map (Cell.raise d) := by
  cases t with
  | nil => rfl
  | cons c t =>
    rw [(Cursor.run?_fresh hp t).2]
    have hraised := (Cursor.run?_raise h d).2
    simp only [Cursor.start, Cursor.raise, Nat.zero_add] at hraised
    exact hraised

/-! ## Building closed texts -/

theorem isPlain_iff {c : Char} : isPlain c = true ↔
    isQuote c = false ∧ isOpening c = false ∧ isClosing c = false := by
  simp [isPlain, and_assoc]

theorem isQuote_of_opens {k : Cursor} {c : Char} (h : k.opens c = true) : isQuote c = true := by
  simp only [Cursor.opens, Bool.or_eq_true, Bool.and_eq_true] at h
  simp only [isQuote, Bool.or_eq_true]
  exact h.imp id fun h => h.1.1

theorem Cursor.code_plain {c : Char} (hc : isPlain c = true) (d : Nat) (p : Option Char) :
    (code d p).next c = code d (some c) ∧ (code d p).cell c = ⟨c, some d⟩ ∧
      (code d p).sinks c = false := by
  obtain ⟨hq, ho, hl⟩ := isPlain_iff.1 hc
  have hopens : (code d p).opens c = false := by
    rw [← Bool.not_eq_true]
    intro h
    exact Bool.eq_false_iff.1 hq (isQuote_of_opens h)
  simp [next, cell, sinks, hopens, ho, hl]

theorem not_opens_of_isOpening {c : Char} (hc : isOpening c = true) (k : Cursor) :
    k.opens c = false ∧ isClosing c = false := by
  simp only [isOpening, Bool.or_eq_true, beq_iff_eq] at hc
  rcases hc with (rfl | rfl) | rfl <;> simp [Cursor.opens, isClosing]

theorem not_opens_of_isClosing {c : Char} (hc : isClosing c = true) (k : Cursor) :
    k.opens c = false ∧ isOpening c = false := by
  simp only [isClosing, Bool.or_eq_true, beq_iff_eq] at hc
  rcases hc with (rfl | rfl) | rfl <;> simp [Cursor.opens, isOpening]

theorem Cursor.code_opening {c : Char} (hc : isOpening c = true) (d : Nat) (p : Option Char) :
    (code d p).next c = code (d + 1) (some c) ∧ (code d p).cell c = ⟨c, some d⟩ ∧
      (code d p).sinks c = false := by
  obtain ⟨hopens, hl⟩ := not_opens_of_isOpening hc (code d p)
  simp [next, cell, sinks, hopens, hc, hl]

theorem Cursor.code_closing {c : Char} (hc : isClosing c = true) (d : Nat) (p : Option Char) :
    (code (d + 1) p).next c = code d (some c) ∧ (code (d + 1) p).cell c = ⟨c, some d⟩ ∧
      (code (d + 1) p).sinks c = false := by
  obtain ⟨hopens, ho⟩ := not_opens_of_isClosing hc (code (d + 1) p)
  simp [next, cell, sinks, hopens, hc, ho]

/-- A step over a plain character. -/
theorem scanFrom_plain {c : Char} (hc : isPlain c = true) (d : Nat) (p : Option Char) (t : Text) :
    scanFrom (.code d p) (c :: t) = ⟨c, some d⟩ :: scanFrom (.code d (some c)) t := by
  obtain ⟨hnext, hcell, -⟩ := Cursor.code_plain hc d p
  rw [scanFrom, hnext, hcell]

theorem scanFrom_plains {w : Text} (hw : ∀ c ∈ w, isPlain c = true) (d : Nat) (p : Option Char) (t : Text) :
    scanFrom (.code d p) (w ++ t) =
      w.map (fun c => ⟨c, some d⟩) ++ scanFrom (.code d (w.getLast?.or p)) t := by
  induction w generalizing p with
  | nil => rfl
  | cons c w ih =>
    rw [List.cons_append, scanFrom_plain (hw c (by simp)), ih (fun x hx => hw x (by simp [hx]))]
    simp [List.getLast?_cons]

theorem scanFrom_opening {c : Char} (hc : isOpening c = true) (d : Nat) (p : Option Char)
    (t : Text) :
    scanFrom (.code d p) (c :: t) = ⟨c, some d⟩ :: scanFrom (.code (d + 1) (some c)) t := by
  obtain ⟨hnext, hcell, -⟩ := Cursor.code_opening hc d p
  rw [scanFrom, hnext, hcell]

theorem scanFrom_closing {c : Char} (hc : isClosing c = true) (d : Nat) (p : Option Char)
    (t : Text) :
    scanFrom (.code (d + 1) p) (c :: t) = ⟨c, some d⟩ :: scanFrom (.code d (some c)) t := by
  obtain ⟨hnext, hcell, -⟩ := Cursor.code_closing hc d p
  rw [scanFrom, hnext, hcell]

/-- A step over a closed text. -/
theorem Closed.scanFrom_append {a : Text} (ha : Closed a) (d : Nat) {p : Option Char} (hp : Fresh p)
    (b : Text) : scanFrom (.code d p) (a ++ b) =
      (scan a).map (Cell.raise d) ++ scanFrom (.code d (a.getLast?.or p)) b := by
  rw [Code.scanFrom_append, ha.scanFrom_code d hp, ha.after_code d hp]

theorem fresh_of_isOpening {c : Char} (hc : isOpening c = true) : Fresh (some c) := by
  simp only [isOpening, Bool.or_eq_true, beq_iff_eq] at hc
  rcases hc with (rfl | rfl) | rfl <;> decide

/-- A step over a bracketed closed text. -/
theorem Closed.scanFrom_group {o c : Char} (ho : isOpening o = true) (hc : isClosing c = true)
    {a : Text} (ha : Closed a) (d : Nat) (p : Option Char) (b : Text) :
    scanFrom (.code d p) (o :: (a ++ c :: b)) =
      ⟨o, some d⟩ :: ((scan a).map (Cell.raise (d + 1)) ++ ⟨c, some d⟩ ::
        scanFrom (.code d (some c)) b) := by
  rw [scanFrom_opening ho, ha.scanFrom_append (d + 1) (fresh_of_isOpening ho), scanFrom_closing hc]

theorem closed_nil : Closed [] := rfl

/-- Two closed texts make one, unless the first hides a quote that the second begins with. -/
theorem Closed.append {a b : Text} (ha : Closed a) (hb : Closed b)
    (h : Fresh a.getLast? ∨ b.head? ≠ some '\'') : Closed (a ++ b) := by
  have hrun : (Cursor.code 0 a.getLast?).run? b = some (.code 0 (b.getLast?.or a.getLast?)) := by
    rcases h with h | h
    · exact hb.run?_code 0 h
    · cases b with
      | nil => rfl
      | cons c b =>
        have hc : c ≠ '\'' := by simpa using h
        rw [(Cursor.run?_unquoted hc b).1]
        refine Eq.trans hb ?_
        simp [List.getLast?_cons]
  rw [Closed, Cursor.run?_append, ha, Option.bind_some, hrun, List.getLast?_append]

theorem closed_of_plain {t : Text} (h : ∀ c ∈ t, isPlain c = true) : Closed t := by
  suffices H : ∀ p : Option Char, (Cursor.code 0 p).run? t = some (.code 0 (t.getLast?.or p)) by
    have := H none
    rwa [Option.or_none] at this
  induction t with
  | nil => exact fun p => rfl
  | cons c t ih =>
    intro p
    obtain ⟨hnext, -, hsinks⟩ := Cursor.code_plain (h c (by simp)) 0 p
    rw [Cursor.run?, if_neg (Bool.eq_false_iff.1 hsinks), hnext, ih (fun x hx => h x (by simp [hx]))]
    simp [List.getLast?_cons]

/-- Brackets around a closed text make a closed text. -/
theorem Closed.group {o c : Char} (ho : isOpening o = true) (hc : isClosing c = true) {a : Text}
    (ha : Closed a) : Closed (o :: (a ++ [c])) := by
  obtain ⟨hnext, -, hsinks⟩ := Cursor.code_opening ho 0 none
  obtain ⟨hnext', -, hsinks'⟩ := Cursor.code_closing hc 0 (a.getLast?.or (some o))
  have hrun := ha.run?_code 1 (fresh_of_isOpening ho)
  rw [Closed, Cursor.start, Cursor.run?, if_neg (Bool.eq_false_iff.1 hsinks), hnext,
    Cursor.run?_append, hrun, Option.bind_some, Cursor.run?, if_neg (Bool.eq_false_iff.1 hsinks'),
    hnext', Cursor.run?]
  simp [List.getLast?_cons]

end Concord.Code
