/-
The top level of closed texts: which characters stand there, how a closed text
begins and ends, and where the bracket that closes its first one stands.
-/
import Concord.Proofs.Code.Settled
import Concord.Proofs.Text.Trim

namespace Concord.Code

open Text

/-- Every character at the top level of the text satisfies `ok`. -/
def TopAll (ok : Char → Bool) (t : Text) : Prop :=
  ∀ cell ∈ scan t, cell.isTop = true → ok cell.char = true

instance (ok : Char → Bool) (t : Text) : Decidable (TopAll ok t) :=
  inferInstanceAs (Decidable (∀ cell ∈ scan t, cell.isTop = true → ok cell.char = true))

theorem Closed.scan_append {a : Text} (ha : Closed a) (b : Text) :
    scan (a ++ b) = scan a ++ scanFrom (.code 0 a.getLast?) b := ha.settled.scan_append b

theorem TopAll.imp {ok ok' : Char → Bool} {t : Text} (h : TopAll ok t)
    (himp : ∀ c, ok c = true → ok' c = true) : TopAll ok' t :=
  fun cell hcell htop => himp _ (h cell hcell htop)

/-- A text after a closed one is read as on its own, unless the first hides a quote that it begins with. -/
theorem Closed.scan_append_of {a b : Text} (ha : Closed a) (h : Fresh a.getLast? ∨ b.head? ≠ some '\'') :
    scan (a ++ b) = scan a ++ scan b := ha.settled.scan_append_of h

theorem TopAll.append {ok : Char → Bool} {a b : Text} (hta : TopAll ok a) (htb : TopAll ok b) (ha : Closed a)
    (h : Fresh a.getLast? ∨ b.head? ≠ some '\'') : TopAll ok (a ++ b) := by
  intro cell hcell htop
  rw [ha.scan_append_of h, List.mem_append] at hcell
  exact hcell.elim (hta cell · htop) (htb cell · htop)

theorem topAll_of_plain {ok : Char → Bool} {w : Text} (h : ∀ c ∈ w, isPlain c = true ∧ ok c = true) :
    TopAll ok w := by
  intro cell hcell _
  have hscan := scanFrom_plains (fun c hc => (h c hc).1) 0 none []
  rw [List.append_nil, scanFrom, List.append_nil] at hscan
  rw [scan, Cursor.start, hscan] at hcell
  obtain ⟨c, hc, rfl⟩ := List.mem_map.1 hcell
  exact (h c hc).2

theorem topAll_of_not_mem {c : Char} {t : Text} (h : c ∉ t) : TopAll (· != c) t := by
  intro cell hcell _
  have hmem : cell.char ∈ (scan t).map Cell.char := List.mem_map_of_mem hcell
  rw [scan, map_char_scanFrom] at hmem
  exact bne_iff_ne.2 fun heq => h (heq ▸ hmem)

/-- Only its brackets stand at the top level of a group. -/
theorem topAll_group {ok : Char → Bool} {o c : Char} (ho : isOpening o = true) (hc : isClosing c = true)
    {a : Text} (ha : Closed a) (hok : ok o = true) (hok' : ok c = true) : TopAll ok (o :: (a ++ [c])) := by
  intro cell hcell htop
  have hscan : scan (o :: (a ++ [c])) = ⟨o, some 0⟩ :: ((scan a).map (Cell.raise 1) ++ [⟨c, some 0⟩]) :=
    ha.scanFrom_group ho hc 0 none []
  rw [hscan] at hcell
  simp only [List.mem_cons, List.mem_append, List.mem_map, List.not_mem_nil, or_false] at hcell
  rcases hcell with rfl | ⟨x, -, rfl⟩ | rfl
  · exact hok
  · rw [Cell.isTop_raise] at htop
    cases htop
  · exact hok'

/-! ## Blanks -/

section Blanks

variable {gap : Text} (hgap : ∀ c ∈ gap, isBlank c = true) {c : Char} (hc : isBlank c = false)

include hgap

theorem closed_of_blank : Closed gap :=
  closed_of_plain fun c hc => isPlain_of_class (by decide) (hgap c hc)

include hc in
theorem not_mem_of_blank : c ∉ gap := by
  intro hmem
  rw [hgap c hmem] at hc
  cases hc

include hc in
theorem last_ne_of_blank : gap.getLast? ≠ some c :=
  fun hlast => not_mem_of_blank hgap hc (List.mem_of_getLast? hlast)

theorem fresh_of_blank : Fresh gap.getLast? :=
  ⟨last_ne_of_blank hgap (by decide), last_ne_of_blank hgap (by decide)⟩

end Blanks

/-! ## The ends of a closed text -/

theorem Cursor.isQuote_next {k : Cursor} (h : ∀ q, k.quote = some q → isQuote q = true) (c : Char) :
    ∀ q, (k.next c).quote = some q → isQuote q = true := by
  obtain ⟨n, _ | r, e, p⟩ := k
  · intro q hq
    simp only [next] at hq
    split at hq
    · rename_i hopens
      simp only [Option.some.injEq] at hq
      exact hq ▸ isQuote_of_opens hopens
    · split at hq
      · simp at hq
      · split at hq <;> simp at hq
  · intro q hq
    have hr := h r rfl
    simp only [next] at hq
    split at hq
    · simp_all
    · split at hq
      · simp_all
      · split at hq <;> simp_all

/-- Literals are ended by quotes. -/
theorem Cursor.isQuote_run? {k l : Cursor} {t : Text} (h : ∀ q, k.quote = some q → isQuote q = true)
    (hrun : k.run? t = some l) : ∀ q, l.quote = some q → isQuote q = true := by
  induction t generalizing k with
  | nil =>
    simp only [run?, Option.some.injEq] at hrun
    exact hrun ▸ h
  | cons c t ih =>
    simp only [run?] at hrun
    split at hrun
    · cases hrun
    · exact ih (isQuote_next h c) hrun

/-- A closed text begins with a quote, a bracket or a plain character of the top level. -/
theorem Closed.head_cases {c : Char} {t : Text} (h : Closed (c :: t)) :
    isQuote c = true ∨ isOpening c = true ∨ isPlain c = true ∧ ⟨c, some 0⟩ ∈ scan (c :: t) := by
  by_cases hq : isQuote c = true
  · exact .inl hq
  by_cases ho : isOpening c = true
  · exact .inr (.inl ho)
  have hopens : Cursor.start.opens c = false := by
    rw [← Bool.not_eq_true]
    exact fun h => hq (isQuote_of_opens h)
  by_cases hl : isClosing c = true
  · have hsinks : Cursor.start.sinks c = true := by
      simp only [Cursor.sinks, hopens, hl]
      rfl
    rw [Closed, Cursor.run?, if_pos hsinks] at h
    cases h
  · have hplain : isPlain c = true := isPlain_iff.2 ⟨by simpa using hq, by simpa using ho, by simpa using hl⟩
    refine .inr (.inr ⟨hplain, ?_⟩)
    rw [scan, Cursor.start, scanFrom_plain hplain]
    simp

/-- A closed text ends with a quote, a bracket or a plain character of the top level. -/
theorem Closed.last_cases {c : Char} {t : Text} (h : Closed (t ++ [c])) :
    isQuote c = true ∨ isClosing c = true ∨ isPlain c = true ∧ ⟨c, some 0⟩ ∈ scan (t ++ [c]) := by
  rw [Closed, Cursor.run?_append] at h
  obtain ⟨l, hrun, hstep⟩ := Option.bind_eq_some_iff.1 h
  have hquote := Cursor.isQuote_run? (k := .start) (by simp [Cursor.start]) hrun
  have hcell : l.cell c ∈ scan (t ++ [c]) := by
    rw [scan, Code.scanFrom_append, Cursor.after_of_run? hrun]
    simp [scanFrom]
  simp only [Cursor.run?] at hstep
  split at hstep
  · cases hstep
  rename_i hsinks
  simp only [Option.some.injEq] at hstep
  by_cases hq : isQuote c = true
  · exact .inl hq
  by_cases hl : isClosing c = true
  · exact .inr (.inl hl)
  obtain ⟨n, _ | q, e, p⟩ := l
  · have hopens : (Cursor.mk n none e p).opens c = false := by
      rw [← Bool.not_eq_true]
      exact fun h => hq (isQuote_of_opens h)
    have hl : isClosing c = false := by simpa using hl
    simp only [Cursor.next, Cursor.cell, hopens, hl, Bool.false_eq_true, if_false] at hstep hcell
    split at hstep
    · simp at hstep
    · rename_i ho
      simp only [Cursor.mk.injEq] at hstep
      rw [hstep.1] at hcell
      exact .inr (.inr ⟨isPlain_iff.2 ⟨by simpa using hq, by simpa using ho, hl⟩, hcell⟩)
  · have hq := hquote q rfl
    simp only [Cursor.next] at hstep
    split at hstep
    · simp at hstep
    · split at hstep
      · simp at hstep
      · split at hstep
        · rename_i hc
          exact .inl (by rw [eq_of_beq hc]; exact hq)
        · simp at hstep

/-- A closed text does not end with a plain character that its top level does without. -/
theorem Closed.last_ne {ok : Char → Bool} {t : Text} (h : Closed t) (htop : TopAll ok t) {c : Char}
    (hc : isPlain c = true) (hok : ok c = false) : t.getLast? ≠ some c := by
  intro hlast
  obtain ⟨u, rfl⟩ := List.getLast?_eq_some_iff.1 hlast
  obtain ⟨hquote, -, hclosing⟩ := isPlain_iff.1 hc
  rcases h.last_cases with h | h | ⟨-, hcell⟩
  · exact Bool.false_ne_true (hquote.symm.trans h)
  · exact Bool.false_ne_true (hclosing.symm.trans h)
  · exact Bool.false_ne_true (hok.symm.trans (htop _ hcell rfl))

/-! ## Brackets -/

/-- A bracket that closes at depth `d`. -/
def Cell.closesAt (d : Nat) (cell : Cell) : Bool := cell.depth == some d && isClosing cell.char

theorem exists_place {t : Text} {place : Nat} {c : Char} (h : t[place]? = some c) :
    ∃ u v, t = u ++ c :: v ∧ u.length = place := by
  obtain ⟨hlt, hget⟩ := List.getElem?_eq_some_iff.1 h
  refine ⟨t.take place, t.drop (place + 1), ?_, by simp; omega⟩
  rw [← hget, List.getElem_cons_drop, List.take_append_drop]

theorem scan_place (u v : Text) (c : Char) : scan (u ++ c :: v) =
    scan u ++ (Cursor.start.after u).cell c :: scanFrom ((Cursor.start.after u).next c) v := by
  rw [scan, scanFrom_append, scanFrom]
  rfl

/-- The partner of a character of code is looked for in what follows it. -/
theorem closeOf?_place (u v : Text) (c : Char) : closeOf? (u ++ c :: v) u.length =
    ((Cursor.start.after u).cell c).depth.bind fun d =>
      ((scanFrom ((Cursor.start.after u).next c) v).findIdx? (Cell.closesAt d)).map (· + (u.length + 1)) := by
  have hat : (scan (u ++ c :: v))[u.length]? = some ((Cursor.start.after u).cell c) := by
    rw [scan_place, List.getElem?_append_right (by simp)]
    simp
  have hdrop : (scan (u ++ c :: v)).drop (u.length + 1) = scanFrom ((Cursor.start.after u).next c) v := by
    rw [scan_place, List.drop_append]
    simp
  rw [closeOf?, hat, hdrop]
  obtain ⟨x, _ | d⟩ := (Cursor.start.after u).cell c <;> rfl

/-- Reading down to depth `d` passes a bracket that closes there. -/
theorem Cursor.exists_closing {k l : Cursor} {t : Text} {d : Nat} (h : k.run? t = some l)
    (hk : d < k.depth) (hl : l.depth ≤ d) :
    ∃ cell ∈ scanFrom k t, cell.closesAt d = true := by
  induction t generalizing k with
  | nil =>
    simp only [run?, Option.some.injEq] at h
    subst h
    omega
  | cons c t ih =>
    simp only [run?] at h
    split at h
    · cases h
    by_cases hnext : d < (k.next c).depth
    · obtain ⟨cell, hcell, hcloses⟩ := ih h hnext
      exact ⟨cell, by simp [scanFrom, hcell], hcloses⟩
    · -- the depth falls to `d` only at a closing bracket of that depth
      refine ⟨k.cell c, by simp [scanFrom], ?_⟩
      rcases k.read_cases c with ⟨-, hdepth, -⟩ | ⟨-, -, -, hdepth, -⟩ | ⟨-, hclosing, hcell, hdepth, -⟩ |
        ⟨-, -, -, hdepth, -⟩
      · omega
      · omega
      · have hd : k.depth - 1 = d := by omega
        simp [Cell.closesAt, hcell, hd, hclosing]
      · omega

/-- A bracket that opens at depth `d` is followed by what stands one deeper. -/
theorem Cursor.depth_next_opening {k : Cursor} {o : Char} {d : Nat} (ho : isOpening o = true)
    (hcode : (k.cell o).depth = some d) : (k.next o).depth = d + 1 := by
  rcases k.read_cases o with ⟨hcell, -⟩ | ⟨-, -, hcell, hdepth, -⟩ | ⟨hother, -⟩ | ⟨hother, -⟩
  · rw [hcell] at hcode
    cases hcode
  · rw [hcell, Option.some.injEq] at hcode
    rw [hdepth, hcode]
  · rw [ho] at hother
    cases hother
  · rw [ho] at hother
    cases hother

/-- The bracket after a closed text that is opened before it closes where the text ends. -/
theorem closeOf?_group {pre a : Text} {o c : Char} (hpre : Closed pre) (ha : Closed a)
    (ho : isOpening o = true) (hc : isClosing c = true) (b : Text) :
    closeOf? (pre ++ o :: (a ++ c :: b)) pre.length = some (pre.length + a.length + 1) := by
  have hafter : Cursor.start.after pre = .code 0 pre.getLast? := Cursor.after_of_run? hpre
  obtain ⟨hnext, hcell, -⟩ := Cursor.code_opening ho 0 pre.getLast?
  have hnone : ((scan a).map (Cell.raise 1)).findIdx? (Cell.closesAt 0) = none := by
    rw [List.findIdx?_eq_none_iff]
    intro cell hcell
    obtain ⟨x, -, rfl⟩ := List.mem_map.1 hcell
    obtain ⟨x, _ | n⟩ := x <;> simp [Cell.raise, Cell.closesAt]
  have hcloses : Cell.closesAt 0 ⟨c, some 0⟩ = true := by simp [Cell.closesAt, hc]
  rw [closeOf?_place, hafter, hnext, hcell, ha.scanFrom_append 1 (fresh_of_isOpening ho), scanFrom_closing hc,
    Option.bind_some, List.findIdx?_append, hnone, List.findIdx?_cons, hcloses]
  simp
  omega

/-- What follows the closing bracket does not matter for it. -/
theorem closeOf?_append {t : Text} {place close : Nat} (h : closeOf? t place = some close) (u : Text) :
    closeOf? (t ++ u) place = some close := by
  unfold closeOf? at h
  split at h
  · rename_i c d hcell
    obtain ⟨i, hi, rfl⟩ := Option.map_eq_some_iff.1 h
    have hplace : place + 1 ≤ (scan t).length := (List.getElem?_eq_some_iff.1 hcell).1
    have hscan : scan (t ++ u) = scan t ++ scanFrom (Cursor.start.after t) u := scanFrom_append .start t u
    have hat : (scan (t ++ u))[place]? = some ⟨c, some d⟩ := by
      rw [hscan, List.getElem?_append_left hplace, hcell]
    simp only [closeOf?, hat]
    rw [hscan, List.drop_append_of_le_length hplace, List.findIdx?_append, hi]
    rfl
  · cases h

/-- What stands in a group, by the places of its brackets. -/
theorem take_drop_group (before a after : Text) (o c : Char) :
    ((before ++ o :: (a ++ c :: after)).take (before.length + a.length + 1)).drop
      (before.length + 1) = a := by
  have hsplit : before ++ o :: (a ++ c :: after) = (before ++ [o]) ++ (a ++ c :: after) := by simp
  have hlength : before.length + a.length + 1 = (before ++ [o]).length + a.length := by simp; omega
  have hstart : before.length + 1 = (before ++ [o]).length := by simp
  rw [hsplit, hlength, hstart, List.take_length_add_append, List.drop_left, List.take_left]

/-- What follows a group. -/
theorem drop_group (before a after : Text) (o c : Char) :
    (before ++ o :: (a ++ c :: after)).drop (before.length + a.length + 1 + 1) = after := by
  have hsplit : before ++ o :: (a ++ c :: after) = (before ++ o :: (a ++ [c])) ++ after := by simp
  have hlength : before.length + a.length + 1 + 1 = (before ++ o :: (a ++ [c])).length := by simp; omega
  rw [hsplit, hlength, List.drop_left]

theorem isParenthesised_group {a : Text} (ha : Closed a) :
    isParenthesised ('(' :: (a ++ [')'])) = true := by
  have h := closeOf?_group closed_nil ha (o := '(') (c := ')') rfl rfl []
  simp only [List.nil_append, List.length_nil, Nat.zero_add] at h
  simp [isParenthesised, h]

/-- A bracket opened in a closed text is closed in it. -/
theorem closeOf?_lt {a b : Text} (ha : Closed a) {place close : Nat} {o : Char} (ho : isOpening o = true)
    (hplace : a[place]? = some o) (h : closeOf? (a ++ b) place = some close) : close < a.length := by
  obtain ⟨u, v, rfl, rfl⟩ := exists_place hplace
  rw [Closed, Cursor.run?_append] at ha
  obtain ⟨k, hbefore, hrun⟩ := Option.bind_eq_some_iff.1 ha
  rw [Cursor.run?] at hrun
  split at hrun
  · cases hrun
  rw [List.append_assoc, List.cons_append, closeOf?_place, Cursor.after_of_run? hbefore] at h
  obtain ⟨d, hcode, h⟩ := Option.bind_eq_some_iff.1 h
  obtain ⟨i, hi, rfl⟩ := Option.map_eq_some_iff.1 h
  have hdepth := Cursor.depth_next_opening ho hcode
  obtain ⟨cell, hmem, hcloses⟩ := Cursor.exists_closing (d := d) hrun (by omega) (Nat.zero_le d)
  obtain ⟨j, hj⟩ : ∃ j, (scanFrom (k.next o) v).findIdx? (Cell.closesAt d) = some j := by
    rw [← Option.isSome_iff_exists, List.findIdx?_isSome, List.any_eq_true]
    exact ⟨cell, hmem, hcloses⟩
  have hin : j < v.length := by
    have := (List.findIdx?_eq_some_iff_findIdx_eq.1 hj).1
    simpa using this
  rw [scanFrom_append, List.findIdx?_append, hj, Option.some_or, Option.some.injEq] at hi
  simp only [List.length_append, List.length_cons]
  omega

/-- What follows a closed text keeps the whole from being one group. -/
theorem isParenthesised_append {a b : Text} (ha : Closed a) (hane : a ≠ []) (hbne : b ≠ []) :
    isParenthesised (a ++ b) = false := by
  rw [← Bool.not_eq_true]
  intro h
  simp only [isParenthesised, Bool.and_eq_true, beq_iff_eq] at h
  obtain ⟨hhead, hclose⟩ := h
  obtain ⟨c, u, rfl⟩ := List.exists_cons_of_ne_nil hane
  simp only [List.cons_append, List.head?_cons, Option.some.injEq] at hhead
  subst hhead
  have hlt := closeOf?_lt ha (o := '(') rfl rfl hclose
  have hbpos : 0 < b.length := List.length_pos_iff.2 hbne
  simp only [List.length_append] at hlt
  omega

end Concord.Code
