/-
The operators at the top level of a condition: one for each comparison and one for
each connective outside groups, at its place (`Condition.operatorsAt_text`). What stands
inside operands and groups gives none.
-/
import Concord.Proofs.Guard.Condition

namespace Concord.Guard

open Text Code

/-! ## The operator that a text begins with -/

/-- The characters that operators begin with. -/
def beginsOperator (c : Char) : Bool := " &|!=<>:-".toList.contains c

theorem leading?_of_not_begins {c : Char} (h : beginsOperator c = false) (t : Text) :
    leading? (c :: t) = none := by
  have hne : ∀ d ∈ " &|!=<>:-".toList, (d == c) = false := by
    intro d hd
    rw [beq_eq_false_iff_ne]
    rintro rfl
    simp [beginsOperator] at h
    simp_all
  have h1 := hne ' ' (by decide)
  have h2 := hne '&' (by decide)
  have h3 := hne '|' (by decide)
  have h4 := hne '!' (by decide)
  have h5 := hne '=' (by decide)
  have h6 := hne '<' (by decide)
  have h7 := hne '>' (by decide)
  have h8 := hne ':' (by decide)
  have h9 := hne '-' (by decide)
  simp [leading?, connectives, inversions, orderings, binder, startsWith_cons, h1, h2, h3, h4, h5, h6, h7,
    h8, h9]

/-- A sign of negation that no equals sign follows begins no operator. -/
theorem leading?_bang {t : Text} (h : t.head? ≠ some '=') : leading? ('!' :: t) = none := by
  have ht : ∀ p, startsWith t ('=' :: p) = false := by
    intro p
    cases t with
    | nil => rfl
    | cons c t =>
      have hc : c ≠ '=' := by simpa using h
      simp [startsWith_cons, hc.symm]
  simp [leading?, connectives, inversions, orderings, binder, startsWith_cons, ht]

/-- The words that a space before them and one after them make an operator. -/
def spacedWords : List Text := ["and".toList, "or".toList, "is".toList, "in".toList, "not in".toList]

/-- A space begins an operator only if one of the words follows it. -/
theorem leading?_space {t : Text} (h : ∀ w ∈ spacedWords, startsWith t (w ++ [' ']) = false) :
    leading? (' ' :: t) = none := by
  have hand : startsWith t ['a', 'n', 'd', ' '] = false := h "and".toList (by decide)
  have hor : startsWith t ['o', 'r', ' '] = false := h "or".toList (by decide)
  have his : startsWith t ['i', 's', ' '] = false := h "is".toList (by decide)
  have hin : startsWith t ['i', 'n', ' '] = false := h "in".toList (by decide)
  have hnot : startsWith t ['n', 'o', 't', ' ', 'i', 'n', ' '] = false := h "not in".toList (by decide)
  have hisnot : startsWith t ['i', 's', ' ', 'n', 'o', 't', ' '] = false := by
    rw [← Bool.not_eq_true, startsWith_iff]
    rintro ⟨u, rfl⟩
    simp [startsWith] at his
  simp [leading?, connectives, inversions, orderings, binder, startsWith_cons, hand, hor, his, hin, hnot,
    hisnot]

/-! ## Walking over the parts of a condition -/

/-- The operators of a text that stands outside brackets after `prev`. -/
def operatorsAt (place : Nat) (prev : Option Char) (t : Text) : List (Nat × Operator) :=
  operatorsFrom place 0 t (scanFrom (.code 0 prev) t)

theorem operators_eq (t : Text) : operators t = operatorsAt 0 none t := rfl

theorem operatorsFrom_quiet (cells : List Cell)
    (h : ∀ cell ∈ cells, cell.isTop = true → beginsOperator cell.char = false) (place : Nat) (t : Text)
    (more : List Cell) : operatorsFrom place 0 (cells.map Cell.char ++ t) (cells ++ more) =
      operatorsFrom (place + cells.length) 0 t more := by
  induction cells generalizing place with
  | nil => rfl
  | cons cell cells ih =>
    have hrest := ih (fun x hx => h x (by simp [hx])) (place + 1)
    rw [List.map_cons, List.cons_append, List.cons_append, operatorsFrom, hrest, List.length_cons,
      Nat.add_assoc, Nat.add_comm 1]
    split
    · rename_i htop
      rw [leading?_of_not_begins (h cell (by simp) htop)]
    · rfl

theorem operatorsFrom_skip (skip place : Nat) (w t : Text) (cells more : List Cell) (hw : w.length = skip)
    (hcells : cells.length = skip) : operatorsFrom place skip (w ++ t) (cells ++ more) =
      operatorsFrom (place + skip) 0 t more := by
  induction skip generalizing place w cells with
  | zero =>
    rw [List.eq_nil_of_length_eq_zero hw, List.eq_nil_of_length_eq_zero hcells]
    rfl
  | succ skip ih =>
    obtain ⟨c, w, rfl⟩ := List.exists_cons_of_length_eq_add_one hw
    obtain ⟨cell, cells, rfl⟩ := List.exists_cons_of_length_eq_add_one hcells
    simp only [List.length_cons, Nat.add_right_cancel_iff] at hw hcells
    rw [List.cons_append, List.cons_append, operatorsFrom, ih _ _ _ hw hcells, Nat.add_assoc,
      Nat.add_comm 1]

variable {prev : Option Char}

/-- A closed text whose top level begins no operator gives none. -/
theorem operatorsAt_closed {a : Text} (ha : Closed a)
    (hquiet : TopAll (fun c => !beginsOperator c) a) (hp : Fresh prev) (place : Nat) (t : Text) :
    operatorsAt place prev (a ++ t) = operatorsAt (place + a.length) (a.getLast?.or prev) t := by
  have hzero : (Cell.raise 0 : Cell → Cell) = id := funext Cell.raise_zero
  have hwalk := operatorsFrom_quiet (scan a) (fun cell hcell htop => by simpa using hquiet cell hcell htop)
    place t (scanFrom (.code 0 (a.getLast?.or prev)) t)
  rw [operatorsAt, ha.scanFrom_append 0 hp, hzero, List.map_id]
  rwa [scan, map_char_scanFrom, length_scanFrom] at hwalk

/-- A plain character that begins no operator where it stands gives none. -/
theorem operatorsAt_plain {c : Char} (hc : isPlain c = true) {t : Text} (h : leading? (c :: t) = none)
    (place : Nat) : operatorsAt place prev (c :: t) = operatorsAt (place + 1) (some c) t := by
  simp [operatorsAt, scanFrom_plain hc, operatorsFrom, h]

/-- A group gives no operators. -/
theorem operatorsAt_group {a : Text} (ha : Closed a) (place : Nat) (t : Text) :
    operatorsAt place prev ('(' :: (a ++ ')' :: t)) = operatorsAt (place + (a.length + 2)) (some ')') t := by
  have hscan := ha.scanFrom_group (o := '(') (c := ')') rfl rfl 0 prev t
  have hwalk := operatorsFrom_quiet (⟨'(', some 0⟩ :: ((scan a).map (Cell.raise 1) ++ [⟨')', some 0⟩]))
    (by
      intro cell hcell htop
      simp only [List.mem_cons, List.mem_append, List.mem_map, List.not_mem_nil, or_false] at hcell
      rcases hcell with rfl | ⟨x, -, rfl⟩ | rfl
      · rfl
      · rw [Cell.isTop_raise] at htop
        cases htop
      · rfl)
    place t (scanFrom (.code 0 (some ')')) t)
  have hchars : ((scan a).map (Cell.raise 1)).map Cell.char = a := by
    rw [List.map_map]
    exact map_char_scanFrom _ a
  simp only [List.map_cons, List.map_append, hchars, List.map_nil, List.cons_append, List.append_assoc,
    List.nil_append, List.length_cons, List.length_append, List.length_map, length_scan,
    List.length_nil] at hwalk
  rw [operatorsAt, hscan]
  exact hwalk

/-- An operator of plain characters is found where it stands. -/
theorem operatorsAt_operator {w t : Text} {op : Operator} (hne : w ≠ [])
    (hw : ∀ c ∈ w, isPlain c = true) (h : leading? (w ++ t) = some (op, w.length)) (place : Nat) :
    operatorsAt place prev (w ++ t) =
        (place, op) :: operatorsAt (place + w.length) (w.getLast?.or prev) t := by
  obtain ⟨c, w, rfl⟩ := List.exists_cons_of_ne_nil hne
  rw [operatorsAt, scanFrom_plains hw, operatorsAt]
  simp only [List.map_cons, List.cons_append] at h ⊢
  have htop : Cell.isTop ⟨c, some 0⟩ = true := rfl
  rw [operatorsFrom, if_pos htop, h]
  simp only [List.length_cons, Nat.add_sub_cancel]
  rw [operatorsFrom_skip w.length _ w _ _ _ rfl (by simp), Nat.add_assoc, Nat.add_comm 1]

/-! ## The operators of a condition -/

/-- How a comparison is found, and at which distance from its first operand. -/
def Comparator.found : Comparator → Nat × Operator
  | equal => (1, .invertible ⟨"==".toList, "!=".toList⟩)
  | unequal => (1, .invertible ⟨"!=".toList, "==".toList⟩)
  | identical => (1, .invertible ⟨"===".toList, "!==".toList⟩)
  | unidentical => (1, .invertible ⟨"!==".toList, "===".toList⟩)
  | single => (1, .invertible ⟨"=".toList, "!=".toList⟩)
  | angled => (1, .invertible ⟨"<>".toList, "=".toList⟩)
  | less | greater | lessEqual | greaterEqual => (1, .ordering)
  | is => (0, .invertible ⟨" is ".toList, " is not ".toList⟩)
  | isNot => (0, .invertible ⟨" is not ".toList, " is ".toList⟩)
  | isIn => (0, .invertible ⟨" in ".toList, " not in ".toList⟩)
  | notIn => (0, .invertible ⟨" not in ".toList, " in ".toList⟩)

/-- At which distance from the condition before it a connective is found. -/
def Connective.distance : Connective → Nat
  | andWord | orWord => 0
  | andSign | orSign => 1

/-- No operator begins with the space before `t`. -/
structure Opens (t : Text) : Prop where
  space : leading? (' ' :: t) = none
  isIn : startsWith t "in ".toList = false
  isLet : startsWith t "let ".toList = false

/-- A sign between spaces is found one place after the first space. -/
theorem operatorsAt_sign {w t : Text} {op : Operator} (hne : w ≠ []) (hw : ∀ c ∈ w, isPlain c = true)
    (hbefore : leading? (' ' :: (w ++ ' ' :: t)) = none)
    (h : leading? (w ++ ' ' :: t) = some (op, w.length)) (ht : leading? (' ' :: t) = none) (place : Nat) :
    operatorsAt place prev (spaced w ++ t) =
      (place + 1, op) :: operatorsAt (place + (spaced w).length) (some ' ') t := by
  have hsplit : spaced w ++ t = ' ' :: (w ++ ' ' :: t) := by simp [spaced]
  rw [hsplit, operatorsAt_plain (by decide) hbefore, operatorsAt_operator hne hw h,
    operatorsAt_plain (by decide) ht]
  have hlen : place + 1 + w.length + 1 = place + (spaced w).length := by simp [spaced]; omega
  rw [hlen]

/-- A word between spaces is found at the first of them. -/
theorem operatorsAt_word {w t : Text} {op : Operator} (hw : ∀ c ∈ w, isPlain c = true)
    (h : leading? (spaced w ++ t) = some (op, (spaced w).length)) (place : Nat) :
    operatorsAt place prev (spaced w ++ t) =
      (place, op) :: operatorsAt (place + (spaced w).length) (some ' ') t := by
  have hplain : ∀ c ∈ spaced w, isPlain c = true := by
    intro c hc
    simp only [spaced, List.mem_cons, List.mem_append, List.not_mem_nil, or_false] at hc
    rcases hc with rfl | hc | rfl
    · decide
    · exact hw c hc
    · decide
  rw [operatorsAt_operator (by simp [spaced]) hplain h, getLast?_spaced]
  rfl

/-- A comparison is found between its operands. -/
theorem Comparator.operatorsAt_text (op : Comparator) {t : Text} (ht : Opens t)
    (hnot : startsWith t "not ".toList = false) (place : Nat) :
    operatorsAt place prev (spaced op.text ++ t) =
      (place + op.found.1, op.found.2) :: operatorsAt (place + (spaced op.text).length) (some ' ') t := by
  cases op with
  | equal | unequal | identical | unidentical | single | angled | less | greater | lessEqual
  | greaterEqual =>
    exact operatorsAt_sign (by decide) (by decide) rfl rfl ht.space place
  | isNot | isIn | notIn => exact operatorsAt_word (by decide) rfl place
  | is =>
    -- the longer operator with the same beginning is tried first
    have hlonger : startsWith (spaced Comparator.is.text ++ t) " is not ".toList = false := hnot
    have hfind : inversions.find? (fun i => startsWith (spaced Comparator.is.text ++ t) i.operator) =
        some ⟨" is ".toList, " is not ".toList⟩ := by
      rw [inversions, List.find?_cons_of_neg (by simp only [hlonger]; decide)]
      rfl
    refine operatorsAt_word (by decide) ?_ place
    rw [leading?, hfind]
    rfl

/-- A connective is found between its conditions. -/
theorem Connective.operatorsAt_text (k : Connective) {t : Text} (ht : Opens t) (place : Nat) :
    operatorsAt place prev (spaced k.text ++ t) =
      (place + k.distance, .connective) :: operatorsAt (place + (spaced k.text).length) (some ' ') t := by
  cases k with
  | andSign | orSign =>
    exact operatorsAt_sign (by decide) (by decide) rfl rfl ht.space place
  | andWord | orWord => exact operatorsAt_word (by decide) rfl place

theorem Operand.not_word (o : Operand) {rest w : Text} (hrest : Follows rest) (hw : w ∈ reservedWords) :
    startsWith (o.text ++ rest) (w ++ [' ']) = false := by
  have hplain : ∀ w ∈ reservedWords, ∀ c ∈ w, isPlain c = true ∧ c ≠ ' ' := by decide
  rw [← Bool.not_eq_true]
  intro h
  exact o.unreserved (o.isOperand.eq_of_word hrest (hplain w hw) h ▸ hw)

theorem startsWith_of_append {t p q : Text} (h : startsWith t p = false) : startsWith t (p ++ q) = false := by
  rw [← Bool.not_eq_true, startsWith_iff] at h ⊢
  rintro ⟨u, rfl⟩
  exact h ⟨q ++ u, by simp⟩

/-- No operator begins with the space before a text that begins with no word of its own. -/
theorem opens_of_words {t : Text} (h : ∀ w ∈ reservedWords, startsWith t (w ++ [' ']) = false) : Opens t where
  space := by
    refine leading?_space fun w hw => ?_
    simp only [spacedWords, List.mem_cons, List.not_mem_nil, or_false] at hw
    rcases hw with rfl | rfl | rfl | rfl | rfl
    · exact h _ (by decide)
    · exact h _ (by decide)
    · exact h _ (by decide)
    · exact h _ (by decide)
    · exact startsWith_of_append (p := "not ".toList) (q := "in ".toList) (h "not".toList (by decide))
  isIn := h "in".toList (by decide)
  isLet := h "let".toList (by decide)

theorem Operand.opens (o : Operand) {rest : Text} (hrest : Follows rest) : Opens (o.text ++ rest) :=
  opens_of_words fun _ hw => o.not_word hrest hw

theorem opens_negation {t : Text} (h : Opens t) : Opens ("not ".toList ++ t) where
  space := by
    refine leading?_space fun w hw => ?_
    simp only [spacedWords, List.mem_cons, List.not_mem_nil, or_false] at hw
    rcases hw with rfl | rfl | rfl | rfl | rfl
    · rfl
    · rfl
    · rfl
    · rfl
    · exact h.isIn
  isIn := rfl
  isLet := rfl

theorem Term.opens : ∀ (t : Term) {rest : Text}, Follows rest → Opens (t.text ++ rest)
  | .operand o, _, hrest => o.opens hrest
  | .bang _, _, _ => ⟨rfl, rfl, rfl⟩
  | .group _, _, _ => ⟨rfl, rfl, rfl⟩

theorem Clause.opens : ∀ (c : Clause) {rest : Text}, Follows rest → Opens (c.text ++ rest)
  | .term t, _, hrest => t.opens hrest
  | .comparison a op b, rest, _ => by
    rw [Clause.text, List.append_assoc, List.append_assoc]
    exact a.opens (follows_spaced _ _)
  | .negation c, rest, hrest => by
    rw [Clause.text, List.append_assoc]
    exact opens_negation (c.opens hrest)

theorem Condition.opens : ∀ (c : Condition) {rest : Text}, Follows rest → Opens (c.text ++ rest)
  | .clause c, _, hrest => c.opens hrest
  | .join l k r, rest, _ => by
    rw [Condition.text, List.append_assoc, List.append_assoc]
    exact l.opens (follows_spaced _ _)

theorem not_begins_of_operand {c : Char} (h : (isOperandChar c || isOpening c || isClosing c) = true) :
    beginsOperator c = false := by
  rw [← Bool.not_eq_true]
  intro hc
  simp only [beginsOperator, List.contains_iff_mem] at hc
  have hnone : ∀ c ∈ " &|!=<>:-".toList, (isOperandChar c || isOpening c || isClosing c) = false := by
    decide
  rw [hnone c hc] at h
  cases h

/-- An operand holds no operators. -/
theorem operatorsAt_operand {a : Text} (ha : IsOperand a) (hp : Fresh prev) (place : Nat) (rest : Text) :
    operatorsAt place prev (a ++ rest) = operatorsAt (place + a.length) (a.getLast?.or prev) rest :=
  operatorsAt_closed ha.closed
    (fun cell hcell htop => by simpa using not_begins_of_operand (ha.top cell hcell htop)) hp place rest

/-- A term holds no operators. -/
theorem Term.operatorsAt_text : ∀ (t : Term) {prev : Option Char}, Fresh prev →
    ∀ (place : Nat) (rest : Text), operatorsAt place prev (t.text ++ rest) =
      operatorsAt (place + t.text.length) (t.text.getLast?.or prev) rest
  | .operand o, _, hp, place, rest => operatorsAt_operand o.isOperand hp place rest
  | .bang t, prev, _, place, rest => by
    have hbang := leading?_bang (head?_ne_equals t.head_text rest)
    rw [Term.text, List.cons_append, operatorsAt_plain (by decide) hbang, t.operatorsAt_text (by decide),
      List.length_cons, Nat.add_assoc, Nat.add_comm 1, List.getLast?_cons]
    simp
  | .group c, prev, _, place, rest => by
    have hsplit : (Term.group c).text ++ rest = '(' :: (c.text ++ ')' :: rest) := by simp [Term.text]
    have hlast : (Term.group c).text.getLast? = some ')' :=
      getLast?_append_some (a := '(' :: c.text) rfl
    rw [hsplit, operatorsAt_group c.closed_text, hlast]
    simp [Term.text]

/-- The operators of a clause that begins at `place`. -/
def Clause.found (place : Nat) : Clause → List (Nat × Operator)
  | .term _ => []
  | .comparison a op _ => [(place + a.text.length + op.found.1, op.found.2)]
  | .negation c => c.found (place + 4)

/-- The operators of a condition that begins at `place`. -/
def Condition.found (place : Nat) : Condition → List (Nat × Operator)
  | .clause c => c.found place
  | .join l k r => l.found place ++ (place + l.text.length + k.distance, .connective) ::
      r.found (place + l.text.length + (spaced k.text).length)

/-- The word `not` is no operator. -/
theorem operatorsAt_not {t : Text} (ht : Opens t) (place : Nat) :
    operatorsAt place prev ("not ".toList ++ t) = operatorsAt (place + 4) (some ' ') t := by
  have hsplit : "not ".toList ++ t = 'n' :: 'o' :: 't' :: ' ' :: t := rfl
  rw [hsplit, operatorsAt_plain (by decide) (leading?_of_not_begins (by decide) _),
    operatorsAt_plain (by decide) (leading?_of_not_begins (by decide) _),
    operatorsAt_plain (by decide) (leading?_of_not_begins (by decide) _),
    operatorsAt_plain (by decide) ht.space]

theorem Clause.operatorsAt_text : ∀ (c : Clause) {prev : Option Char}, Fresh prev →
    ∀ (place : Nat) {rest : Text}, Follows rest → operatorsAt place prev (c.text ++ rest) =
      c.found place ++ operatorsAt (place + c.text.length) (c.text.getLast?.or prev) rest
  | .term t, _, hp, place, rest, _ => t.operatorsAt_text hp place rest
  | .comparison a op b, prev, hp, place, rest, hrest => by
    have hsplit : (Clause.comparison a op b).text ++ rest =
        a.text ++ (spaced op.text ++ (b.text ++ rest)) := by simp [Clause.text]
    have hlen : place + a.text.length + (spaced op.text).length + b.text.length =
        place + (Clause.comparison a op b).text.length := by simp [Clause.text]; omega
    obtain ⟨x, hx, -⟩ := b.last_end
    have hlast : (Clause.comparison a op b).text.getLast? = some x :=
      getLast?_append_some (getLast?_append_some hx)
    rw [hsplit, operatorsAt_operand a.isOperand hp,
      op.operatorsAt_text (b.opens hrest) (b.not_word (w := "not".toList) hrest (by decide)),
      operatorsAt_operand b.isOperand (by decide), hlen, hx, hlast]
    rfl
  | .negation c, prev, hp, place, rest, hrest => by
    have hlen : place + 4 + c.text.length = place + (Clause.negation c).text.length := by
      simp [Clause.text]; omega
    obtain ⟨x, hx, -⟩ := c.last_text
    have hlast : (Clause.negation c).text.getLast? = some x := getLast?_append_some hx
    rw [Clause.text, List.append_assoc, operatorsAt_not (c.opens hrest),
      c.operatorsAt_text (by decide) _ hrest, hlen, hx, ← Clause.text, hlast]
    rfl

/-- **The operators at the top level of a condition** are its own comparisons and connectives. -/
theorem Condition.operatorsAt_text : ∀ (c : Condition) {prev : Option Char}, Fresh prev →
    ∀ (place : Nat) {rest : Text}, Follows rest → operatorsAt place prev (c.text ++ rest) =
      c.found place ++ operatorsAt (place + c.text.length) (c.text.getLast?.or prev) rest
  | .clause c, _, hp, place, _, hrest => c.operatorsAt_text hp place hrest
  | .join l k r, prev, hp, place, rest, hrest => by
    have hsplit : (Condition.join l k r).text ++ rest =
        l.text ++ (spaced k.text ++ (r.text ++ rest)) := by simp [Condition.text]
    have hlen : place + l.text.length + (spaced k.text).length + r.text.length =
        place + (Condition.join l k r).text.length := by simp [Condition.text]; omega
    obtain ⟨x, hx, -⟩ := r.last_text
    have hlast : (Condition.join l k r).text.getLast? = some x :=
      getLast?_append_some (getLast?_append_some hx)
    rw [hsplit, l.operatorsAt_text hp place (follows_spaced _ _), k.operatorsAt_text (r.opens hrest),
      r.operatorsAt_text (by decide) _ hrest, hlen, hx, hlast]
    simp [Condition.found]

theorem Condition.operators_text (c : Condition) : operators c.text = c.found 0 := by
  have h : operatorsAt 0 none (c.text ++ []) = c.found 0 ++ [] := c.operatorsAt_text (by decide) 0 (.inl rfl)
  rwa [List.append_nil, List.append_nil] at h

end Concord.Guard
